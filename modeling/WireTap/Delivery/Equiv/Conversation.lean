import Mathlib.Data.List.Basic
import WireTap.Lib.StopAndWait
import WireTap.Forward.Equiv.InTurn
import WireTap.Gateway.Equiv.IngestServer
import WireTap.Delivery.Conversation

/-!
# What the daemon reports delivered is at the gateway

The conversation refines stop and wait (`Refines.step`): what is owed an answer is the link's, the
pipe is the `BATCH`es that have come to the daemon's connection and were not handled yet, and the
answers due are the `ACK`s on their way back and the one its task is about to write.

`run_delivers` puts the batcher, its sink and the gateway together.
-/

namespace WireTap

variable {α : Type}

def Message.batch? : Message α → Option (UInt32 × List α)
  | .batch seq samples => some (seq, samples)
  | _ => none

def Reply.ack? : Reply → Option Ack
  | .ack a => some a
  | _ => none

/-- The `BATCH`es among messages. -/
def batches (ms : List (Message α)) : List (UInt32 × List α) := ms.filterMap Message.batch?

/-- The `ACK`s among replies. -/
def acks (rs : List Reply) : List Ack := rs.filterMap Reply.ack?

@[simp] theorem batches_cons (m : Message α) (ms : List (Message α)) :
    batches (m :: ms) = m.batch?.toList ++ batches ms := by
  cases h : m.batch? <;> simp [batches, h]

@[simp] theorem batches_snoc (ms : List (Message α)) (m : Message α) :
    batches (ms ++ [m]) = batches ms ++ m.batch?.toList := by
  cases h : m.batch? <;> simp [batches, h]

@[simp] theorem acks_cons (r : Reply) (rs : List Reply) :
    acks (r :: rs) = r.ack?.toList ++ acks rs := by
  cases h : r.ack? <;> simp [acks, h]

@[simp] theorem acks_snoc (rs : List Reply) (r : Reply) :
    acks (rs ++ [r]) = acks rs ++ r.ack?.toList := by
  cases h : r.ack? <;> simp [acks, h]

namespace Gateway.IngestServer

variable {cfg : Config} {machine : SessionMachine α} {s s' : IngestServer α} {i : Nat}
  {c c' : Conn α}

/-! ### One connection -/

/-- The `ACK` a task is about to write. -/
def Serving.owes : Serving → List Ack
  | .replacing _ answer | .counting _ answer => answer.ack?.toList
  | _ => []

/-- The `ACK`s that are to come from a connection. -/
def Conn.due (c : Conn α) : List Ack := acks c.outbox ++ c.task.owes

/-- What became of the first `BATCH` of connection `i` when it, or anything else, took a step that
committed `new`. -/
inductive Dealt (i : Nat) (c c' : Conn α) : List (Stored α) → Prop where
  /-- It was not handled. -/
  | quiet (new : List (Stored α)) : batches c'.inbox = batches c.inbox → c'.due = c.due →
    (∀ w ∈ new, w.conn ≠ i) → Dealt i c c' new
  | refused (b : UInt32 × List α) (a : Ack) : batches c.inbox = b :: batches c'.inbox →
    c'.due = c.due ++ [a] → ¬a.Confirms b → Dealt i c c' []
  | stored (b : UInt32 × List α) (a : Ack) (w : Stored α) :
    batches c.inbox = b :: batches c'.inbox → c'.due = c.due ++ [a] → w.conn = i →
    w.samples = b.2 → Dealt i c c' [w]

theorem helloAnswer_ack (status : HelloStatus) (assignments : List Assignment) :
    (helloAnswer machine status assignments).ack? = none := rfl

/-- An answer that commits nothing: to a `BATCH`, an `ACK` that does not confirm it; to anything
else, none. -/
theorem Answers.dealt (hlawful : machine.Lawful) {m : Message α} {accepted : Bool}
    {action : Action α} {r : Reply} (hoffer : machine.offers accepted m action = true)
    (h : Answers machine action r) :
    m.batch? = none ∧ r.ack? = none ∨
      ∃ b a, m.batch? = some b ∧ r.ack? = some a ∧ ¬a.Confirms b := by
  cases h with
  | reply r =>
    obtain ⟨rfl, rfl⟩ := hlawful.reply hoffer
    exact .inl ⟨rfl, rfl⟩
  | hello h status _ =>
    obtain rfl := hlawful.hello hoffer
    exact .inl ⟨rfl, rfl⟩
  | helloRefused status =>
    obtain ⟨⟨h, rfl⟩, -⟩ := hlawful.helloRefused hoffer
    exact .inl ⟨rfl, rfl⟩
  | batch seq samples status hstatus =>
    obtain ⟨-, rfl⟩ := hlawful.batch hoffer
    refine .inr ⟨_, _, rfl, rfl, fun hconfirms => hstatus ?_⟩
    exact congrArg Ack.status hconfirms
  | nack seq status =>
    obtain ⟨⟨seq', samples, rfl⟩, hstatus⟩ := hlawful.nack hoffer
    refine .inr ⟨_, _, rfl, rfl, fun hconfirms => hstatus ?_⟩
    exact congrArg Ack.status hconfirms
  | catalogueGet sha offset found =>
    obtain rfl := hlawful.catalogueGet hoffer
    exact .inl ⟨rfl, rfl⟩

/-- What a connection's own turn did; only its own batches were committed. -/
theorem Turn.dealt (hlawful : machine.Lawful) (h : Turn cfg machine s i c s') :
    ∃ c' new, s'.conns = s.conns.set i c' ∧ s'.writes = s.writes ++ new ∧
      (∀ w ∈ new, w.conn = i) ∧ Dealt i c c' new := by
  cases h with
  | answers m inbox action r served htask hin hoffer hanswers =>
    refine ⟨_, [], rfl, (List.append_nil _).symm, by simp, ?_⟩
    rcases hanswers.dealt hlawful hoffer with ⟨hm, hr⟩ | ⟨b, a, hm, hr, hno⟩
    · refine .quiet [] ?_ ?_ (by simp)
      · simp [Conn.answering, hin, hm]
      · simp [Conn.due, Conn.answering, Serving.owes, htask, hr]
    · refine .refused b a ?_ ?_ hno
      · simp [Conn.answering, hin, hm]
      · simp [Conn.due, Conn.answering, Serving.owes, htask, hr]
  | heeds m inbox status htask hin hoffer =>
    obtain rfl := hlawful.catalogueStatus hoffer
    refine ⟨_, [], rfl, (List.append_nil _).symm, by simp, .quiet [] ?_ rfl (by simp)⟩
    simp [hin, Message.batch?]
  | checks m inbox h₀ info admitted htask hin hoffer _ =>
    obtain rfl := hlawful.hello hoffer
    refine ⟨_, [], rfl, (List.append_nil _).symm, by simp, .quiet [] ?_ ?_ (by simp)⟩
    · simp [hin, Message.batch?]
    · simp [Conn.due, Serving.owes, htask]
  | stores m inbox seq samples session htask hin hoffer _ =>
    obtain ⟨-, rfl⟩ := hlawful.batch hoffer
    refine ⟨_, _, rfl, rfl, by simp, .stored (seq, samples) ⟨seq, .ok⟩ _ ?_ ?_ rfl rfl⟩
    · simp [hin, Message.batch?]
    · simp [Conn.due, Serving.owes, htask, Reply.ack?]
  | losesAnswer m inbox seq samples session htask hin hoffer _ =>
    obtain ⟨-, rfl⟩ := hlawful.batch hoffer
    refine ⟨_, _, rfl, rfl, by simp, .stored (seq, samples) ⟨seq, .overloaded⟩ _ ?_ ?_ rfl rfl⟩
    · simp [Conn.answering, hin, Message.batch?]
    · simp [Conn.due, Conn.answering, Serving.owes, htask, Reply.ack?]
  | refuses h₀ info keys status htask _ =>
    refine ⟨_, [], rfl, (List.append_nil _).symm, by simp, .quiet [] rfl ?_ (by simp)⟩
    simp [Conn.due, Conn.answering, Serving.owes, htask, helloAnswer_ack]
  | opens h₀ info keys m name assignments c' htask _ hc' =>
    refine ⟨c', [], rfl, (List.append_nil _).symm, by simp, ?_⟩
    rcases hc' with ⟨-, rfl⟩ | ⟨previous, -, rfl⟩
    · refine .quiet [] rfl ?_ (by simp)
      simp [Conn.due, Serving.owes, htask, helloAnswer_ack]
    · refine .quiet [] rfl ?_ (by simp)
      simp [Conn.due, Serving.owes, htask, helloAnswer_ack]
  | closesPrevious previous answer htask =>
    refine ⟨_, [], rfl, (List.append_nil _).symm, by simp, .quiet [] rfl ?_ (by simp)⟩
    simp [Conn.due, Conn.answering, Serving.owes, htask]
  | counts rows answer session htask _ =>
    refine ⟨_, [], rfl, (List.append_nil _).symm, by simp, .quiet [] rfl ?_ (by simp)⟩
    simp [Conn.due, Conn.answering, Serving.owes, htask]
  | leaves sessions htask _ =>
    refine ⟨_, [], rfl, (List.append_nil _).symm, by simp, .quiet [] rfl ?_ (by simp)⟩
    simp [Conn.due, Serving.owes, htask]
  | wakes htask _ =>
    refine ⟨_, [], rfl, (List.append_nil _).symm, by simp, .quiet [] rfl ?_ (by simp)⟩
    simp [Conn.due, Serving.owes, htask, Reply.ack?]
  | hangsUp htask =>
    refine ⟨_, [], rfl, (List.append_nil _).symm, by simp, .quiet [] rfl ?_ (by simp)⟩
    simp [Conn.due, Serving.owes, htask]

/-- What a step did at connection `i`: a message came, an answer was read, or neither. -/
inductive Happened (i : Nat) (c c' : Conn α) : IngestEvent α → List (Stored α) → Prop where
  | came (m : Message α) : c' = { c with inbox := c.inbox ++ [m] } →
    Happened i c c' (.arrive i m) []
  | read (r : Reply) (outbox : List Reply) : c.outbox = r :: outbox → c' = { c with outbox } →
    Happened i c c' (.take i) []
  | dealt (e : IngestEvent α) (new : List (Stored α)) : Dealt i c c' new → Happened i c c' e new

/-- What a step does at a connection there is, and that what it commits is a connection's. -/
theorem step_happened (hlawful : machine.Lawful) {e : IngestEvent α}
    (h : s.step cfg machine e = some s') :
    s.conns.length ≤ s'.conns.length ∧ ∃ new, s'.writes = s.writes ++ new ∧
      (∀ w ∈ new, w.conn < s.conns.length) ∧
      ∀ (j : Nat) (c : Conn α), s.conns[j]? = some c →
        ∃ c', s'.conns[j]? = some c' ∧ Happened j c c' e new := by
  have hsame : ∀ (j : Nat) (c₀ : Conn α) (new : List (Stored α)), (∀ w ∈ new, w.conn ≠ j) →
      Happened j c₀ c₀ e new :=
    fun j c₀ new hnew => .dealt e new (.quiet new rfl rfl hnew)
  rcases step_cases h with rfl | ⟨i, c, hi, hclient⟩ | ⟨i, c, hi, hturn⟩ | ⟨told, rfl⟩ |
    ⟨keys, blobs, rfl⟩
  · refine ⟨by simp, [], by simp, by simp, fun j c₀ hj => ⟨c₀, ?_, hsame j c₀ [] (by simp)⟩⟩
    exact getElem?_snoc_iff.mpr (.inl hj)
  · have hother : ∀ (c' : Conn α) (j : Nat) (c₀ : Conn α), j ≠ i → s.conns[j]? = some c₀ →
        ∃ c₁, (s.conns.set i c')[j]? = some c₁ ∧ Happened j c₀ c₁ e [] :=
      fun c' j c₀ hj hc₀ =>
        ⟨c₀, (getElem?_set_iff hi).mpr (.inr ⟨hj, hc₀⟩), hsame j c₀ [] (by simp)⟩
    cases hclient with
    | arrives m =>
      refine ⟨by simp [setConn], [], by simp [setConn], by simp, fun j c₀ hj => ?_⟩
      by_cases hji : j = i
      · subst hji
        obtain rfl := Option.some.inj (hi.symm.trans hj)
        exact ⟨_, (getElem?_set_iff hi).mpr (.inl ⟨rfl, rfl⟩), .came m rfl⟩
      · exact hother _ j c₀ hji hj
    | takes r outbox hout =>
      refine ⟨by simp [setConn], [], by simp [setConn], by simp, fun j c₀ hj => ?_⟩
      by_cases hji : j = i
      · subst hji
        obtain rfl := Option.some.inj (hi.symm.trans hj)
        exact ⟨_, (getElem?_set_iff hi).mpr (.inl ⟨rfl, rfl⟩), .read r outbox hout rfl⟩
      · exact hother _ j c₀ hji hj
  · obtain ⟨c', new, hconns, hwrites, hown, hdealt⟩ := hturn.dealt hlawful
    have hlt := (List.getElem?_eq_some_iff.mp hi).1
    rw [hconns]
    refine ⟨by simp, new, hwrites, fun w hw => by rw [hown w hw]; exact hlt, fun j c₀ hj => ?_⟩
    by_cases hji : j = i
    · subst hji
      obtain rfl := Option.some.inj (hi.symm.trans hj)
      exact ⟨c', (getElem?_set_iff hi).mpr (.inl ⟨rfl, rfl⟩), .dealt e new hdealt⟩
    · refine ⟨c₀, (getElem?_set_iff hi).mpr (.inr ⟨hji, hj⟩), hsame j c₀ new fun w hw => ?_⟩
      rw [hown w hw]
      exact Ne.symm hji
  · refine ⟨by simp, [], by simp, by simp, fun j c₀ hj => ?_⟩
    refine ⟨if j ∈ told then { c₀ with reassigned := true } else c₀, ?_, ?_⟩
    · rw [List.getElem?_mapIdx, hj]
      rfl
    · split
      · exact .dealt e [] (.quiet [] rfl rfl (by simp))
      · exact hsame j c₀ [] (by simp)
  · exact ⟨Nat.le_refl _, [], by simp, by simp, fun j c₀ hj => ⟨c₀, hj, hsame j c₀ [] (by simp)⟩⟩

end Gateway.IngestServer

namespace Delivery

open Gateway (IngestServer KeyStore)

variable {cfg : IngestServer.Config} {machine : IngestServer.SessionMachine α} {c c' : Conversation α}

/-! ### What a step can do -/

inductive Stepped (cfg : IngestServer.Config) (machine : IngestServer.SessionMachine α)
    (c : Conversation α) : Happening α → Conversation α → Prop where
  | gateway (e : IngestServer.IngestEvent α) (server : IngestServer α) : c.mayHappen e = true →
    c.server.step cfg machine e = some server →
    Stepped cfg machine c (.gateway e) { c with server }
  | dialled : Stepped cfg machine c (.daemon .dialled)
      { c with server := { c.server with conns := c.server.conns ++ [{}] }
               dialled := c.dialled ++ [c.server.conns.length]
               current := some c.server.conns.length
               log := c.log ++ [.dialled] }
  | sent (i : Nat) (conn : IngestServer.Conn α) (m : Message α) : c.current = some i →
    c.server.conns[i]? = some conn →
    Stepped cfg machine c (.daemon (.sent m))
      { c.noteSend i m with
        server := c.server.setConn i { conn with inbox := conn.inbox ++ [m] }
        log := c.log ++ [.sent m] }
  | received (i : Nat) (conn : IngestServer.Conn α) (r : Reply) (outbox : List Reply) :
    c.current = some i → c.server.conns[i]? = some conn → conn.outbox = r :: outbox →
    Stepped cfg machine c (.daemon (.received r))
      { c with server := c.server.setConn i { conn with outbox }, log := c.log ++ [.received r] }
  | quarantined (samples : List α) : Stepped cfg machine c (.daemon (.quarantined samples))
      { c with log := c.log ++ [.quarantined samples] }
  | lost (i : Nat) (conn : IngestServer.Conn α) (seq : UInt32) (samples : List α) :
    c.current = some i → c.server.conns[i]? = some conn →
    Stepped cfg machine c (.lost seq samples)
      { c.noteSend i (.batch seq samples) with
        server := c.server.setConn i { conn with inbox := conn.inbox ++ [.batch seq samples] }
        current := none }

theorem conversation_step_cases {h : Happening α} (hs : c.step cfg machine h = some c') :
    Stepped cfg machine c h c' := by
  cases h with
  | gateway e =>
    obtain ⟨hmay, hstep⟩ := of_guard hs
    obtain ⟨server, hserver, rfl⟩ := Option.map_eq_some_iff.mp hstep
    exact .gateway e server hmay hserver
  | daemon e =>
    cases e with
    | dialled =>
      cases hs
      exact .dialled
    | sent m =>
      simp only [Conversation.step] at hs
      split at hs
      · cases hs
      · rename_i i hi
        obtain ⟨server, hserver, rfl⟩ := Option.map_eq_some_iff.mp hs
        obtain ⟨conn, hconn, rfl⟩ := Option.map_eq_some_iff.mp hserver
        exact .sent i conn m hi hconn
    | received r =>
      simp only [Conversation.step] at hs
      split at hs
      · cases hs
      · rename_i i hi
        obtain ⟨hhead, hs⟩ := of_guard hs
        obtain ⟨server, hserver, rfl⟩ := Option.map_eq_some_iff.mp hs
        obtain ⟨conn, hconn, hhead⟩ := Option.bind_eq_some_iff.mp hhead
        obtain ⟨outbox, hout⟩ := List.head?_eq_some_iff.mp hhead
        simp only [IngestServer.step, hconn, hout, List.cons_ne_nil, if_false, List.tail_cons,
          Option.some.injEq] at hserver
        subst hserver
        exact .received i conn r outbox hi hconn hout
    | quarantined samples =>
      cases hs
      exact .quarantined samples
  | lost seq samples =>
    simp only [Conversation.step] at hs
    split at hs
    · cases hs
    · rename_i i hi
      obtain ⟨server, hserver, rfl⟩ := Option.map_eq_some_iff.mp hs
      obtain ⟨conn, hconn, rfl⟩ := Option.map_eq_some_iff.mp hserver
      exact .lost i conn seq samples hi hconn

/-! ### No batch is stored more often than it was sent -/

structure Sound (c : Conversation α) : Prop where
  writes : ∀ w ∈ c.server.writes, w.conn < c.server.conns.length
  /-- What is stored on a daemon's connection, and then what is on its way there, was sent there. -/
  once : ∀ i ∈ c.dialled, ∃ conn, c.server.conns[i]? = some conn ∧
    (c.storedOn i ++ (batches conn.inbox).map (·.2)).Sublist (c.sentOn i)

theorem Sound.init (keys : KeyStore) (blobs : List (Sha × List UInt8)) :
    Sound (Conversation.init keys blobs : Conversation α) where
  writes := by simp [Conversation.init, IngestServer.init]
  once := by simp [Conversation.init]

/-- What a step of the gateway commits on connection `i`. -/
theorem storedOn_append {server : IngestServer α} {new : List (IngestServer.Stored α)} (i : Nat)
    (h : server.writes = c.server.writes ++ new) :
    ({ c with server } : Conversation α).storedOn i =
      c.storedOn i ++ (new.filter fun w => w.conn = i).map IngestServer.Stored.samples := by
  simp [Conversation.storedOn, h]

/-- A batch of the daemon's comes to its connection. -/
theorem Sound.sent (h : Sound c) {i : Nat} {conn : IngestServer.Conn α} (m : Message α)
    (hconn : c.server.conns[i]? = some conn) {log : List (Event α)} {current : Option Nat} :
    Sound { c.noteSend i m with
            server := c.server.setConn i { conn with inbox := conn.inbox ++ [m] }
            log, current } := by
  refine ⟨?_, fun j hj => ?_⟩
  · intro w hw
    show w.conn < (c.server.conns.set i _).length
    rw [List.length_set]
    exact h.writes w hw
  · have hdialled : (c.noteSend i m).dialled = c.dialled := by cases m <;> rfl
    have hsends : (c.noteSend i m).sends =
        c.sends ++ m.batch?.toList.map fun b => (i, b.2) := by
      cases m <;> simp [Conversation.noteSend, Message.batch?]
    obtain ⟨conn', hconn', hsub⟩ := h.once j (hdialled ▸ hj)
    by_cases hji : j = i
    · subst hji
      obtain rfl := Option.some.inj (hconn.symm.trans hconn')
      refine ⟨_, (getElem?_set_iff hconn).mpr (.inl ⟨rfl, rfl⟩), ?_⟩
      show (c.storedOn j ++ (batches (conn.inbox ++ [m])).map (·.2)).Sublist
        (((c.noteSend j m).sends.filter fun s => s.1 = j).map (·.2))
      rw [hsends, batches_snoc, List.map_append, ← List.append_assoc, List.filter_append,
        List.map_append]
      refine hsub.append ?_
      cases m.batch? <;> simp
    · refine ⟨conn', (getElem?_set_iff hconn).mpr (.inr ⟨hji, hconn'⟩), hsub.trans ?_⟩
      show (c.sentOn j).Sublist (((c.noteSend i m).sends.filter fun s => s.1 = j).map (·.2))
      rw [hsends, List.filter_append, List.map_append]
      exact List.sublist_append_left _ _

theorem Sound.step (hlawful : machine.Lawful) {h : Happening α} (hsound : Sound c)
    (hs : c.step cfg machine h = some c') : Sound c' := by
  cases conversation_step_cases hs with
  | gateway e server hmay hserver =>
    obtain ⟨hlen, new, hwrites, hnew, hall⟩ := IngestServer.step_happened hlawful hserver
    refine ⟨?_, fun i hi => ?_⟩
    · intro w hw
      rw [show ({ c with server } : Conversation α).server.writes = server.writes from rfl,
        hwrites] at hw
      rcases List.mem_append.mp hw with hw | hw
      · exact (hsound.writes w hw).trans_le hlen
      · exact (hnew w hw).trans_le hlen
    · obtain ⟨conn, hconn, hsub⟩ := hsound.once i hi
      obtain ⟨conn', hconn', hhappened⟩ := hall i conn hconn
      refine ⟨conn', hconn', ?_⟩
      show List.Sublist _ (c.sentOn i)
      rw [storedOn_append i hwrites]
      cases hhappened with
      | came m hm =>
        -- Not a `BATCH`: those come from the daemon.
        have hbatch : m.batch? = none := by
          cases m <;> simp_all [Conversation.mayHappen, Message.batch?]
        rw [hm]
        simpa [hbatch] using hsub
      | read r outbox _ hread =>
        rw [hread]
        simpa using hsub
      | dealt _ _ hdealt =>
        cases hdealt with
        | quiet _ hbatches _ hothers =>
          have hnone : new.filter (fun w => w.conn = i) = [] := by
            simpa [List.filter_eq_nil_iff] using hothers
          rw [hbatches, hnone, List.map_nil, List.append_nil]
          exact hsub
        | refused b a hbatches _ _ =>
          refine List.Sublist.trans ?_ hsub
          rw [hbatches]
          simp
        | stored b a w hbatches _ hw hsamples =>
          rw [hbatches] at hsub
          simpa [hw, hsamples] using hsub
  | dialled =>
    refine ⟨?_, fun i hi => ?_⟩
    · intro w hw
      have hlt := hsound.writes w hw
      simp only [List.length_append, List.length_singleton]
      omega
    · rcases List.mem_append.mp hi with hi | hi
      · obtain ⟨conn, hconn, hsub⟩ := hsound.once i hi
        exact ⟨conn, getElem?_snoc_iff.mpr (.inl hconn), hsub⟩
      · obtain rfl := List.mem_singleton.mp hi
        refine ⟨{}, getElem?_snoc_iff.mpr (.inr ⟨rfl, rfl⟩), ?_⟩
        have hnone : c.server.writes.filter (fun w => w.conn = c.server.conns.length) = [] := by
          refine List.filter_eq_nil_iff.mpr fun w hw => ?_
          have hlt := hsound.writes w hw
          simp only [decide_eq_true_eq]
          omega
        simp [Conversation.storedOn, hnone, batches]
  | sent i conn m _ hconn => exact hsound.sent m hconn
  | received i conn r outbox _ hconn hout =>
    refine ⟨?_, fun j hj => ?_⟩
    · intro w hw
      show w.conn < (c.server.conns.set i _).length
      rw [List.length_set]
      exact hsound.writes w hw
    · obtain ⟨conn', hconn', hsub⟩ := hsound.once j hj
      by_cases hji : j = i
      · subst hji
        obtain rfl := Option.some.inj (hconn.symm.trans hconn')
        exact ⟨_, (getElem?_set_iff hconn).mpr (.inl ⟨rfl, rfl⟩), hsub⟩
      · exact ⟨conn', (getElem?_set_iff hconn).mpr (.inr ⟨hji, hconn'⟩), hsub⟩
  | quarantined samples => exact ⟨hsound.writes, hsound.once⟩
  | lost i conn seq samples _ hconn => exact hsound.sent _ hconn

/-! ### The refinement -/

/-- The conversation as stop and wait: the messages are `BATCH`es, the answers `ACK`s. -/
abbrev Abstract (α : Type) := StopAndWait (UInt32 × List α) Ack

structure Refines (c : Conversation α) (a : Abstract α) : Prop where
  stored : a.stored.map (·.2) = c.stored
  acked : a.acked = (tally c.log).acked
  /-- While the daemon is on a connection; what is on its way on the others is not heard. -/
  current : ∀ i, c.current = some i → i ∈ c.dialled ∧ a.owing = (tally c.log).owing ∧
    ∃ conn, c.server.conns[i]? = some conn ∧ a.pipe = batches conn.inbox ∧ a.due = conn.due

/-- Others' batches may be stored. -/
theorem reaches_others (a : Abstract α) (xs : List (UInt32 × List α)) :
    Relation.ReflTransGen (StopAndWait.Step Ack.Confirms) a { a with stored := a.stored ++ xs } := by
  induction xs generalizing a with
  | nil =>
    rw [List.append_nil]
  | cons x xs ih =>
    have hrest := ih { a with stored := a.stored ++ [x] }
    rw [List.append_assoc, List.singleton_append] at hrest
    exact .head (.other a x) hrest

/-- What a step of the gateway commits for the daemon. -/
def ofDaemon (c : Conversation α) (new : List (IngestServer.Stored α)) : List (List α) :=
  (new.filter fun w => w.conn ∈ c.dialled).map IngestServer.Stored.samples

theorem stored_append {server : IngestServer α} {new : List (IngestServer.Stored α)}
    (h : server.writes = c.server.writes ++ new) :
    ({ c with server } : Conversation α).stored = c.stored ++ ofDaemon c new := by
  simp [Conversation.stored, ofDaemon, h]

/-- A new connection of the daemon's has nothing stored yet. -/
theorem stored_dialled (hsound : Sound c) :
    (c.server.writes.filter fun w => w.conn ∈ c.dialled ++ [c.server.conns.length]) =
      c.server.writes.filter fun w => w.conn ∈ c.dialled := by
  refine List.filter_congr fun w hw => ?_
  have hlt := hsound.writes w hw
  simp [Nat.ne_of_lt hlt]

/-- What the gateway does of itself. -/
theorem Refines.gateway (hlawful : machine.Lawful) {a : Abstract α} (hr : Refines c a)
    {e : IngestServer.IngestEvent α} {server : IngestServer α} (hmay : c.mayHappen e = true)
    (hserver : c.server.step cfg machine e = some server) :
    ∃ a', Relation.ReflTransGen (StopAndWait.Step Ack.Confirms) a a' ∧
      Refines { c with server } a' := by
  obtain ⟨-, new, hwrites, -, hall⟩ := IngestServer.step_happened hlawful hserver
  -- Batches of the daemon's that are not on the connection it is on.
  have hothers : ∀ b : Abstract α, b.stored = a.stored → b.acked = a.acked →
      (∀ i, c.current = some i → i ∈ c.dialled ∧ b.owing = (tally c.log).owing ∧
        ∃ conn, server.conns[i]? = some conn ∧ b.pipe = batches conn.inbox ∧ b.due = conn.due) →
      ∃ a', Relation.ReflTransGen (StopAndWait.Step Ack.Confirms) b a' ∧
        Refines { c with server } a' := by
    intro b hstored hacked hcurrent
    refine ⟨_, reaches_others b ((ofDaemon c new).map fun xs => (0, xs)), ?_, ?_, hcurrent⟩
    · rw [stored_append hwrites, List.map_append, hstored, hr.stored, List.map_map]
      congr 1
      exact List.map_id _
    · exact hacked.trans hr.acked
  rcases Option.eq_none_or_eq_some c.current with hnone | ⟨i, hcurrent⟩
  · exact hothers a rfl rfl (by simp [hnone])
  · obtain ⟨hi, howing, conn, hconn, hpipe, hdue⟩ := hr.current i hcurrent
    obtain ⟨conn', hconn', hhappened⟩ := hall i conn hconn
    have hthere : ∀ b : Abstract α, b.owing = a.owing → b.pipe = batches conn'.inbox →
        b.due = conn'.due → ∀ j, c.current = some j → j ∈ c.dialled ∧
          b.owing = (tally c.log).owing ∧
          ∃ conn, server.conns[j]? = some conn ∧ b.pipe = batches conn.inbox ∧
            b.due = conn.due := by
      intro b hbowing hbpipe hbdue j hj
      obtain rfl := Option.some.inj (hcurrent.symm.trans hj)
      exact ⟨hi, hbowing.trans howing, conn', hconn', hbpipe, hbdue⟩
    cases hhappened with
    | came m hm =>
      have hbatch : m.batch? = none := by
        cases m <;> simp_all [Conversation.mayHappen, Message.batch?]
      refine hothers a rfl rfl (hthere a rfl ?_ ?_)
      · rw [hpipe, hm, batches_snoc, hbatch, Option.toList_none, List.append_nil]
      · rw [hdue, hm]
        rfl
    | read r outbox hout hread =>
      have hacks : a.due = r.ack?.toList ++ conn'.due := by
        rw [hdue, hread, IngestServer.Conn.due, hout, acks_cons, List.append_assoc]
        rfl
      have hbatches : a.pipe = batches conn'.inbox := by
        rw [hpipe, hread]
      cases hr' : r.ack? with
      | none =>
        rw [hr', Option.toList_none, List.nil_append] at hacks
        exact hothers a rfl rfl (hthere a rfl hbatches hacks)
      | some k =>
        rw [hr', Option.toList_some, List.singleton_append] at hacks
        obtain ⟨a', hsteps, hend⟩ :=
          hothers { a with due := conn'.due } rfl rfl (hthere _ rfl hbatches rfl)
        exact ⟨a', .head (.lose a k conn'.due hacks) hsteps, hend⟩
    | dealt _ _ hdealt =>
      cases hdealt with
      | quiet _ hbatches hdues _ =>
        exact hothers a rfl rfl (hthere a rfl (hpipe.trans hbatches.symm) (hdue.trans hdues.symm))
      | refused b k hbatches hdues hno =>
        rw [hbatches] at hpipe
        obtain ⟨a', hsteps, hend⟩ :=
          hothers { a with pipe := batches conn'.inbox, due := a.due ++ [k] } rfl rfl
            (hthere _ rfl rfl (by rw [hdues, hdue]))
        exact ⟨a', .head (.refuse a b _ k hpipe hno) hsteps, hend⟩
      | stored b k w hbatches hdues hw hsamples =>
        rw [hbatches] at hpipe
        refine ⟨_, .single (.store a b _ k hpipe), ?_, hr.acked, ?_⟩
        · rw [stored_append hwrites, List.map_append, hr.stored]
          simp [ofDaemon, hw, hi, hsamples]
        · exact hthere _ rfl rfl (by rw [hdues, hdue])

/-- The daemon did something on the connection it is on. -/
theorem Refines.onCurrent {a b : Abstract α} (hr : Refines c a) {i : Nat}
    {conn conn' : IngestServer.Conn α} (hcurrent : c.current = some i)
    (hconn : c.server.conns[i]? = some conn) (hdialled : c'.dialled = c.dialled)
    (hstays : c'.current = c.current) (hserver : c'.server = c.server.setConn i conn')
    (hstored : b.stored = a.stored) (hacked : b.acked = (tally c'.log).acked)
    (howing : b.owing = (tally c'.log).owing) (hpipe : b.pipe = batches conn'.inbox)
    (hdue : b.due = conn'.due) : Refines c' b := by
  refine ⟨?_, hacked, fun j hj => ?_⟩
  · rw [hstored, hr.stored, Conversation.stored, Conversation.stored, hserver, hdialled]
    rfl
  · rw [hstays] at hj
    obtain rfl := Option.some.inj (hcurrent.symm.trans hj)
    rw [hdialled, hserver]
    exact ⟨(hr.current i hcurrent).1, howing, conn', (getElem?_set_iff hconn).mpr (.inl ⟨rfl, rfl⟩),
      hpipe, hdue⟩

theorem Refines.step (hlawful : machine.Lawful) {h : Happening α} {a : Abstract α}
    (hsound : Sound c) (hr : Refines c a) (hturn : Logs Event.InTurn c'.log)
    (hs : c.step cfg machine h = some c') :
    ∃ a', Relation.ReflTransGen (StopAndWait.Step Ack.Confirms) a a' ∧ Refines c' a' := by
  cases conversation_step_cases hs with
  | gateway e server hmay hserver => exact hr.gateway hlawful hmay hserver
  | dialled =>
    refine ⟨_, .single (.redial a), ?_, ?_, ?_⟩
    · rw [Conversation.stored, stored_dialled hsound]
      exact hr.stored
    · rw [tally_snoc]
      exact hr.acked
    · intro i hi
      obtain rfl := Option.some.inj hi
      refine ⟨by simp, ?_, {}, getElem?_snoc_iff.mpr (.inr ⟨rfl, rfl⟩), rfl, rfl⟩
      rw [tally_snoc]
      rfl
  | sent i conn m hcurrent hconn =>
    obtain ⟨-, howing, conn', hconn', hpipe, hdue⟩ := hr.current i hcurrent
    obtain rfl := Option.some.inj (hconn.symm.trans hconn')
    have hrest : (c.noteSend i m).dialled = c.dialled ∧ (c.noteSend i m).current = c.current := by
      cases m <;> exact ⟨rfl, rfl⟩
    cases hm : m.batch? with
    | none =>
      have htally : tally (c.log ++ [.sent m]) = tally c.log := by
        rw [tally_snoc]
        cases m <;> first | rfl | cases hm
      refine ⟨a, .refl, hr.onCurrent hcurrent hconn hrest.1 hrest.2 rfl rfl ?_ ?_ ?_ hdue⟩
      · rw [htally]
        exact hr.acked
      · rw [htally]
        exact howing
      · rw [hpipe, batches_snoc, hm, Option.toList_none, List.append_nil]
    | some b =>
      obtain ⟨seq, samples⟩ := b
      obtain rfl : m = .batch seq samples := by
        cases m <;> simp_all [Message.batch?]
      -- It is sent in its turn.
      have hnone : a.owing = none := howing.trans (hturn c.log _ [] rfl seq samples rfl)
      refine ⟨_, .single (.send a (seq, samples) hnone),
        hr.onCurrent hcurrent hconn hrest.1 hrest.2 rfl rfl ?_ ?_ ?_ hdue⟩
      · rw [tally_snoc]
        exact hr.acked
      · rw [tally_snoc]
        rfl
      · rw [batches_snoc, hpipe, hm, Option.toList_some]
  | received i conn r outbox hcurrent hconn hout =>
    obtain ⟨-, howing, conn', hconn', hpipe, hdue⟩ := hr.current i hcurrent
    obtain rfl := Option.some.inj (hconn.symm.trans hconn')
    rw [IngestServer.Conn.due, hout, acks_cons, List.append_assoc] at hdue
    cases hr' : r.ack? with
    | none =>
      have htally : tally (c.log ++ [.received r]) = tally c.log := by
        rw [tally_snoc]
        cases r <;> first | rfl | cases hr'
      rw [hr', Option.toList_none, List.nil_append] at hdue
      refine ⟨a, .refl, hr.onCurrent hcurrent hconn rfl rfl rfl rfl ?_ ?_ hpipe hdue⟩
      · rw [htally]
        exact hr.acked
      · rw [htally]
        exact howing
    | some k =>
      obtain rfl : r = .ack k := by
        cases r <;> simp_all [Reply.ack?]
      rw [hr', Option.toList_some, List.singleton_append] at hdue
      cases ho : a.owing with
      | none =>
        refine ⟨_, .single (.lose a k _ hdue),
          hr.onCurrent hcurrent hconn rfl rfl rfl rfl ?_ ?_ hpipe rfl⟩
        · rw [tally_snoc, Tally.note, ← howing, ho]
          exact hr.acked.trans (List.append_nil _).symm
        · rw [tally_snoc]
          exact ho
      | some x =>
        refine ⟨_, .single (.hear a x k _ ho hdue),
          hr.onCurrent hcurrent hconn rfl rfl rfl rfl ?_ ?_ hpipe rfl⟩
        · rw [tally_snoc, Tally.note, ← howing, ho, hr.acked]
          show _ = _ ++ List.filter (fun b => k.Confirms b) [x]
          rw [List.filter_singleton]
          simp
        · rw [tally_snoc]
          rfl
  | quarantined samples =>
    refine ⟨a, .refl, hr.stored, ?_, ?_⟩
    · rw [tally_snoc]
      exact hr.acked
    · rw [tally_snoc]
      exact hr.current
  | lost i conn seq samples _ _ =>
    refine ⟨a, .refl, hr.stored, hr.acked, by simp⟩

/-! ### Runs -/

theorem Stepped.log {h : Happening α} (hs : Stepped cfg machine c h c') :
    ∃ new, c'.log = c.log ++ new := by
  cases hs with
  | gateway e server _ _ => exact ⟨[], (List.append_nil _).symm⟩
  | dialled => exact ⟨_, rfl⟩
  | sent i conn m _ _ => exact ⟨_, rfl⟩
  | received i conn r outbox _ _ _ => exact ⟨_, rfl⟩
  | quarantined samples => exact ⟨_, rfl⟩
  | lost i conn seq samples _ _ => exact ⟨[], (List.append_nil _).symm⟩

/-- Sound, and as long as the daemon keeps its turns a run of stop and wait. -/
structure Follows (c : Conversation α) : Prop where
  sound : Sound c
  refines : Logs Event.InTurn c.log → ∃ a,
    Relation.ReflTransGen (StopAndWait.Step Ack.Confirms) {} a ∧ Refines c a

theorem follows_of_runs (hlawful : machine.Lawful) {keys : KeyStore}
    {blobs : List (Sha × List UInt8)} {hs : List (Happening α)}
    (hrun : runs (Conversation.step cfg machine) (Conversation.init keys blobs) hs = some c) :
    Follows c := by
  refine invariant_of_runs ?_ ?_ hrun
  · rintro c h c' ⟨hsound, hrefines⟩ hstep
    refine ⟨hsound.step hlawful hstep, fun hturn => ?_⟩
    obtain ⟨new, hlog⟩ := (conversation_step_cases hstep).log
    obtain ⟨a, hreach, hr⟩ := hrefines (hlog ▸ hturn).of_append
    obtain ⟨a', hsteps, hr'⟩ := hr.step hlawful hsound hturn hstep
    exact ⟨a', hreach.trans hsteps, hr'⟩
  · refine ⟨Sound.init keys blobs, fun _ => ⟨{}, .refl, ?_, rfl, by simp [Conversation.init]⟩⟩
    simp [Conversation.init, Conversation.stored, IngestServer.init]

section Delivered

variable [CatalogueFormat] [Protocol α] {C : Type} [FrameCache C α] [LawfulFrameCache C]
  [AtomicFrameCache C]

/-- From the queue to the database.  Whatever the gateway, its other clients and the network do, and
whatever reads and removals of the disk cache fail, what a batcher's sink has reported delivered is,
in order, what it put in the dead-letter file and batches the gateway committed for it, in the order
of their commits: so each is a commit of its own, and what was removed from the disk cache is among
them.  On each of the daemon's connections what was committed was sent there, in that order, no more
often than it was sent.  And once the batcher returns, everything it ever held or accepted was
delivered (each with a delivery of its own), is in the cache, or was counted lost. -/
theorem run_delivers {batching : Batching} (sink : ForwardSink α) (cache : C)
    (turns : List (List (Other α))) (fuel : Nat) (returned : Bool)
    (w : World (ForwardSink α) C α) (hv : LawfulFrameCache.Valid cache)
    (hnew : sink.log = [])
    (hrun : (run fuel).run (World.init sink cache batching turns) = (returned, w))
    (hlawful : machine.Lawful) (keys : KeyStore) (blobs : List (Sha × List UInt8))
    (hs : List (Happening α)) (c : Conversation α)
    (hconversation :
      runs (Conversation.step cfg machine) (Conversation.init keys blobs) hs = some c)
    (hlog : c.log = w.sink.log) :
    (∃ (stored : List (List α)) (kept : List α), stored.Sublist c.stored ∧
        Split w.history.delivered stored.flatten kept ∧
        w.sink.deadSamples = sink.deadSamples ++ kept) ∧
      w.history.removed.Sublist w.history.delivered ∧
      (∀ i ∈ c.dialled, (c.storedOn i).Sublist (c.sentOn i)) ∧
      (returned = true → ∃ direct, AtLeastOnce
        ((LawfulFrameCache.frames cache).map Cached.sample ++ w.history.accepted)
        w.history.delivered (w.history.removed ++ direct)
        (w.cachedSamples ++ w.history.lost)) := by
  have hstart : sink.Accounts sink.deadSamples [] :=
    ⟨[], by rw [hnew]; exact Ledger.nil, by rw [List.append_nil]⟩
  obtain ⟨ha, hdone⟩ := Accounted.run (ForwardSink.accounts sink.deadSamples) hv hstart hrun
  obtain ⟨kept, hledger, hdead⟩ := ha.sink
  obtain ⟨oks, hoks, hsplit⟩ := hledger.acked
  obtain ⟨hsound, hrefines⟩ := follows_of_runs hlawful hconversation
  have hturn : Logs Event.InTurn c.log := by
    rw [hlog]
    exact run_inTurn hnew hrun
  obtain ⟨a, hreach, hr⟩ := hrefines hturn
  -- What the link's log says was acknowledged is what stop and wait says was.
  have hacked : (oks.map (·.2)).Sublist c.stored := by
    rw [← hr.stored]
    refine List.Sublist.map _ (hoks.trans ?_)
    rw [← hlog, ← hr.acked]
    exact StopAndWait.acked_sublist hreach
  refine ⟨⟨oks.map (·.2), kept, hacked, ?_, hdead⟩, ha.removed, ?_, ?_⟩
  · rw [← List.flatMap_def]
    exact hsplit
  · intro i hi
    obtain ⟨conn, -, hsub⟩ := hsound.once i hi
    exact (List.sublist_append_left _ _).trans hsub
  · intro hreturned
    have hplaced := ha.placed
    rw [hdone hreturned, List.append_nil, List.append_nil] at hplaced
    exact hplaced

end Delivered

section Refused

attribute [local instance] pairs noFormat

/-- A gateway that takes the first `BATCH` and will never take the second, either time. -/
def onceRefusing : ForwardSink Nat :=
  { refusedSink with
    apiKey := "admin"
    dials := [.link { arrivals := [.reply (.helloAck ⟨.ok, 3, []⟩), .reply (.ack ⟨1, .ok⟩),
      .reply (.ack ⟨2, .malformed⟩), .reply (.ack ⟨3, .ok⟩), .reply (.ack ⟨4, .malformed⟩)] }] }

/-- The cache does not forget the batch the first time. -/
def onceRefused : Bool × World (ForwardSink Nat) (RowCache (RowFormat.option Nat)) Nat :=
  (run 2).run (World.init onceRefusing refusedCache refusedBatching [])

/-- The same at the gateway: PostgreSQL refuses the second `BATCH`'s rows. -/
def refusingGateway : List (Happening Nat) :=
  let h := hello onceRefusing
  [.daemon .dialled, .daemon (.sent (.hello h)), .gateway (.handle 0 (.hello h) {}),
    .gateway (.resume 0 {}), .daemon (.received (.helloAck ⟨.ok, 3, []⟩)),
    .daemon (.sent (.catalogueStatus [])), .gateway (.handle 0 (.catalogueStatus []) {}),
    .daemon (.sent (.batch 1 [10, 20])), .gateway (.handle 0 (.batch 1 [10, 20]) {}),
    .gateway (.resume 0 {}), .daemon (.received (.ack ⟨1, .ok⟩)),
    .daemon (.sent (.batch 2 [30])),
    .gateway (.handle 0 (.batch 2 [30]) { write := .copy (some "22003") }),
    .daemon (.received (.ack ⟨2, .malformed⟩)), .daemon (.quarantined [30]),
    .daemon (.sent (.batch 3 [10, 20])), .gateway (.handle 0 (.batch 3 [10, 20]) {}),
    .gateway (.resume 0 {}), .daemon (.received (.ack ⟨3, .ok⟩)),
    .daemon (.sent (.batch 4 [30])),
    .gateway (.handle 0 (.batch 4 [30]) { write := .copy (some "22003") }),
    .daemon (.received (.ack ⟨4, .malformed⟩)), .daemon (.quarantined [30])]

def afterRefusing : Conversation Nat :=
  (runs (Conversation.step IngestServer.plainConfig IngestServer.plainMachine)
    (Conversation.init IngestServer.adminOnly []) refusingGateway).getD
      (Conversation.init IngestServer.adminOnly [])

theorem afterRefusing_reached :
    runs (Conversation.step IngestServer.plainConfig IngestServer.plainMachine)
      (Conversation.init IngestServer.adminOnly []) refusingGateway = some afterRefusing := by
  decide +kernel

/-- `10` and `20` are at the gateway, in two commits, and `30` is in the dead-letter file, twice. -/
theorem run_delivers_refused :
    afterRefusing.stored = [[10, 20], [10, 20]] ∧
      onceRefused.2.history.delivered = [10, 20, 30, 10, 20, 30] ∧
      onceRefused.2.history.removed = [10, 20, 30] ∧
      ∃ (stored : List (List Nat)) (kept : List Nat), stored.Sublist afterRefusing.stored ∧
        Split onceRefused.2.history.delivered stored.flatten kept ∧
        onceRefused.2.sink.deadSamples = onceRefusing.deadSamples ++ kept := by
  refine ⟨by decide +kernel, by decide +kernel, by decide +kernel, ?_⟩
  exact (run_delivers onceRefusing refusedCache [] 2 onceRefused.1 onceRefused.2
    trivial rfl (Prod.mk.eta (p := onceRefused)).symm
    IngestServer.plainMachine_lawful IngestServer.adminOnly [] refusingGateway afterRefusing
    afterRefusing_reached (by decide +kernel)).1

end Refused

end Delivery

end WireTap
