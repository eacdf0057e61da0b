import Mathlib.Algebra.Ring.Nat
import Mathlib.Data.List.Nodup
import Mathlib.Data.List.Basic
import WireTap.Lib.History
import WireTap.Lib.Slots
import WireTap.Gateway.IngestServer

/-!
# The sessions and the batches of the ingest listener

`step_cases` says once what a step can do.  `Registered` is the invariant of the registry: it holds
exactly the sessions of the connections that are being served, the one a new `HELLO` replaces among
them until it is closed, and each entry says whose it is and counts its batches.  `run_authorised`:
every batch committed went to the database its session's `HELLO` came to, under a key that was valid
and may ingest.
-/

namespace WireTap.Gateway.IngestServer

variable {α : Type} {cfg : Config} {machine : SessionMachine α} {s s' : IngestServer α}

/-! ### What a step can do -/

/-- How an action that commits nothing is answered at once. -/
inductive Answers (machine : SessionMachine α) : Action α → Reply → Prop where
  | reply (r : Reply) : Answers machine (.reply r) r
  | hello (h : Hello) (status : HelloStatus) : status ≠ .ok →
    Answers machine (.hello h) (helloAnswer machine status [])
  | helloRefused (status : HelloStatus) :
    Answers machine (.helloRefused status) (helloAnswer machine status [])
  | batch (seq : UInt32) (samples : List α) (status : AckStatus) : status ≠ .ok →
    Answers machine (.batch seq samples) (.ack ⟨seq, status⟩)
  | nack (seq : UInt32) (status : AckStatus) : Answers machine (.nack seq status) (.ack ⟨seq, status⟩)
  | catalogueGet (sha : Sha) (offset : Nat) (found : Except ChunkStatus (List UInt8)) :
    Answers machine (.catalogueGet sha offset) (.catalogue (machine.answerCatalogue sha offset found))

/-- What the client of connection `i`, which is `c`, can do. -/
inductive Client (s : IngestServer α) (i : Nat) (c : Conn α) :
    IngestEvent α → IngestServer α → Prop where
  | arrives (m : Message α) :
    Client s i c (.arrive i m) (s.setConn i { c with inbox := c.inbox ++ [m] })
  | takes (r : Reply) (outbox : List Reply) : c.outbox = r :: outbox →
    Client s i c (.take i) (s.setConn i { c with outbox })

/-- What connection `i`, which is `c`, can do. -/
inductive Turn (cfg : Config) (machine : SessionMachine α) (s : IngestServer α) (i : Nat)
    (c : Conn α) : IngestServer α → Prop where
  | answers (m : Message α) (inbox : List (Message α)) (action : Action α) (r : Reply)
      (served : Option (Sha × List UInt8)) :
    c.task = .waiting → c.inbox = m :: inbox → machine.offers c.authed.isSome m action = true →
    Answers machine action r →
    Turn cfg machine s i c (s.setConn i ({ c with inbox, served }.answering r))
  | heeds (m : Message α) (inbox : List (Message α)) (status : CatalogueStatus) :
    c.task = .waiting → c.inbox = m :: inbox →
    machine.offers c.authed.isSome m (.catalogueStatus status) = true →
    Turn cfg machine s i c (s.setConn i { c with inbox })
  | checks (m : Message α) (inbox : List (Message α)) (h : Hello) (info : KeyInfo)
      (admitted : Bool) :
    c.task = .waiting → c.inbox = m :: inbox →
    machine.offers c.authed.isSome m (.hello h) = true →
    authenticate cfg s.keys admitted h = .ok info →
    Turn cfg machine s i c (s.setConn i { c with inbox, task := .checked h info s.keys })
  | stores (m : Message α) (inbox : List (Message α)) (seq : UInt32) (samples : List α)
      (session : IngestSession) :
    c.task = .waiting → c.inbox = m :: inbox →
    machine.offers c.authed.isSome m (.batch seq samples) = true → c.authed = some session →
    Turn cfg machine s i c
      { s.setConn i { c with inbox, task := .counting samples.length (.ack ⟨seq, .ok⟩) } with
        writes := s.writes ++ [⟨i, session.id, session.database, samples, true⟩] }
  | losesAnswer (m : Message α) (inbox : List (Message α)) (seq : UInt32) (samples : List α)
      (session : IngestSession) :
    c.task = .waiting → c.inbox = m :: inbox →
    machine.offers c.authed.isSome m (.batch seq samples) = true → c.authed = some session →
    Turn cfg machine s i c
      { s.setConn i ({ c with inbox }.answering (.ack ⟨seq, .overloaded⟩)) with
        writes := s.writes ++ [⟨i, session.id, session.database, samples, false⟩] }
  | refuses (h : Hello) (info : KeyInfo) (keys : KeyStore) (status : HelloStatus) :
    c.task = .checked h info keys → status ≠ .ok →
    Turn cfg machine s i c (s.setConn i (c.answering (helloAnswer machine status [])))
  | opens (h : Hello) (info : KeyInfo) (keys : KeyStore) (m : Met) (name : String)
      (assignments : List Assignment) (c' : Conn α) :
    c.task = .checked h info keys → welcome cfg h info m = .ok (name, assignments) →
    (c.authed = none ∧
        c' = { c with authed := some ⟨name, s.sessions.nextId, h.daemonId, h.devices⟩
                      outbox := c.outbox ++ [helloAnswer machine .ok assignments]
                      task := .waiting } ∨
      ∃ previous, c.authed = some previous ∧
        c' = { c with authed := some ⟨name, s.sessions.nextId, h.daemonId, h.devices⟩
                      task := .replacing previous.id (helloAnswer machine .ok assignments) }) →
    Turn cfg machine s i c
      { s.setConn i c' with
        sessions := s.sessions.open ⟨info.name, name, h.version, 0, 0⟩ h i
        opened := s.opened ++ [⟨i, h, info, keys, name⟩] }
  | closesPrevious (previous : Nat) (answer : Reply) : c.task = .replacing previous answer →
    Turn cfg machine s i c
      { s.setConn i (c.answering answer) with sessions := s.sessions.close previous }
  | counts (rows : Nat) (answer : Reply) (session : IngestSession) :
    c.task = .counting rows answer → c.authed = some session →
    Turn cfg machine s i c
      { s.setConn i (c.answering answer) with sessions := s.sessions.count session.id rows }
  | leaves (sessions : Sessions) : c.task = .ended →
    (c.authed = none ∧ sessions = s.sessions ∨
      ∃ session, c.authed = some session ∧ sessions = s.sessions.close session.id) →
    Turn cfg machine s i c { s.setConn i { c with task := .gone } with sessions }
  | wakes : c.task = .waiting → c.reassigned = true →
    Turn cfg machine s i c (s.setConn i
      { c with outbox := c.outbox ++ [.close .reassigned], reassigned := false, task := .ended })
  | hangsUp : c.task = .waiting → Turn cfg machine s i c (s.setConn i { c with task := .ended })

theorem ackForCopyError_ne_ok (code : Option String) : ackForCopyError code ≠ .ok := by
  unfold ackForCopyError
  split <;> simp

theorem badAuth_ne_ok : badAuth ≠ .ok := by simp [badAuth]

theorem authenticate_error {keys : KeyStore} {admitted : Bool} {h : Hello} {status : HelloStatus}
    (herr : authenticate cfg keys admitted h = .error status) : status ≠ .ok := by
  have hbad : ∀ status', (Except.error badAuth : Except HelloStatus KeyInfo) = .error status' →
      status' ≠ .ok := by
    rintro status' ⟨⟩
    exact badAuth_ne_ok
  unfold authenticate at herr
  split at herr
  · exact hbad _ herr
  · exact hbad _ herr
  · split at herr
    · cases herr
    · exact hbad _ herr

theorem welcome_error {h : Hello} {info : KeyInfo} {m : Met} {status : HelloStatus}
    (herr : welcome cfg h info m = .error status) : status ≠ .ok := by
  have hdatabase : ∀ requested status', database info requested = .error status' →
      status' ≠ .ok := by
    intro requested status' h'
    unfold database at h'
    split at h' <;> split at h' <;> cases h' <;> simp [badAuth]
  unfold welcome at herr
  split at herr
  · rename_i status' hname
    cases herr
    exact hdatabase _ _ hname
  · split at herr <;> cases herr <;> simp

theorem perform_cases {i : Nat} {c : Conn α} {inbox : List (Message α)} {m : Message α} {met : Met}
    {action : Action α} (htask : c.task = .waiting) (hin : c.inbox = m :: inbox)
    (hoffer : machine.offers c.authed.isSome m action = true)
    (h : s.perform cfg machine i { c with inbox } met action = some s') :
    Turn cfg machine s i c s' := by
  cases action with
  | reply r =>
    cases h
    exact .answers m inbox _ r c.served htask hin hoffer (.reply r)
  | hello h₀ =>
    simp only [perform] at h
    split at h
    · rename_i status hstatus
      cases h
      exact .answers m inbox _ _ c.served htask hin hoffer
        (.hello h₀ status (authenticate_error hstatus))
    · rename_i info hinfo
      cases h
      exact .checks m inbox h₀ info met.admitted htask hin hoffer hinfo
  | helloRefused status =>
    cases h
    exact .answers m inbox _ _ c.served htask hin hoffer (.helloRefused status)
  | batch seq samples =>
    simp only [perform] at h
    split at h
    · cases h
    · rename_i session hauthed
      split at h
      · cases h
        exact .stores m inbox seq samples session htask hin hoffer hauthed
      · cases h
        exact .answers m inbox _ _ c.served htask hin hoffer
          (.batch seq samples _ (ackForCopyError_ne_ok _))
      · cases h
        exact .answers m inbox _ _ c.served htask hin hoffer (.batch seq samples _ (by simp))
      · cases h
        exact .losesAnswer m inbox seq samples session htask hin hoffer hauthed
  | nack seq status =>
    cases h
    exact .answers m inbox _ _ c.served htask hin hoffer (.nack seq status)
  | catalogueGet sha offset =>
    cases h
    exact .answers m inbox _ _ _ htask hin hoffer (.catalogueGet sha offset _)
  | catalogueStatus status =>
    cases h
    exact .heeds m inbox status htask hin hoffer

theorem resume_cases {i : Nat} {c : Conn α} {met : Met}
    (h : s.resume cfg machine i c met c.task = some s') : Turn cfg machine s i c s' := by
  cases htask : c.task with
  | waiting =>
    rw [htask] at h
    cases h
  | checked h₀ info keys =>
    rw [htask] at h
    simp only [resume, greet, Option.some.injEq] at h
    subst h
    split
    · rename_i status hstatus
      exact .refuses h₀ info keys status htask (welcome_error hstatus)
    · rename_i name assignments hwelcome
      refine .opens h₀ info keys met name assignments _ htask hwelcome ?_
      cases hauthed : c.authed with
      | none => exact .inl ⟨rfl, rfl⟩
      | some previous => exact .inr ⟨previous, rfl, rfl⟩
  | replacing previous answer =>
    rw [htask] at h
    cases h
    exact .closesPrevious previous answer htask
  | counting rows answer =>
    rw [htask] at h
    simp only [resume] at h
    split at h
    · cases h
    · rename_i session hauthed
      cases h
      exact .counts rows answer session htask hauthed
  | ended =>
    rw [htask] at h
    simp only [resume] at h
    split at h
    · rename_i hauthed
      cases h
      exact .leaves s.sessions htask (.inl ⟨hauthed, rfl⟩)
    · rename_i session hauthed
      cases h
      exact .leaves _ htask (.inr ⟨session, hauthed, rfl⟩)
  | gone =>
    rw [htask] at h
    cases h

/-- A step is a new connection, something its client or a connection there is does, news of a
reassignment, or something none of them sees. -/
theorem step_cases {e : IngestEvent α} (h : s.step cfg machine e = some s') :
    s' = { s with conns := s.conns ++ [{}] } ∨
      (∃ i c, s.conns[i]? = some c ∧ Client s i c e s') ∨
      (∃ i c, s.conns[i]? = some c ∧ Turn cfg machine s i c s') ∨
      (∃ told : List Nat, s' = { s with conns := s.conns.mapIdx fun i c =>
        if i ∈ told then { c with reassigned := true } else c }) ∨
      ∃ keys blobs, s' = { s with keys, blobs } := by
  cases e with
  | accept =>
    cases h
    exact .inl rfl
  | arrive i m =>
    obtain ⟨c, hi, rfl⟩ := Option.map_eq_some_iff.mp h
    exact .inr (.inl ⟨i, c, hi, .arrives m⟩)
  | take i =>
    simp only [step] at h
    split at h
    · rename_i c hi
      split at h
      · cases h
      · rename_i hne
        cases h
        obtain ⟨r, outbox, hout⟩ := List.exists_cons_of_ne_nil hne
        refine .inr (.inl ⟨i, c, hi, ?_⟩)
        rw [hout, List.tail_cons]
        exact .takes r outbox hout
    · cases h
  | handle i action met =>
    simp only [step] at h
    split at h
    · rename_i c hi
      split at h
      · rename_i m inbox htask hin
        obtain ⟨hoffer, hperform⟩ := of_guard h
        exact .inr (.inr (.inl ⟨i, c, hi, perform_cases htask hin hoffer hperform⟩))
      · cases h
    · cases h
  | resume i met =>
    simp only [step] at h
    split at h
    · rename_i c hi
      exact .inr (.inr (.inl ⟨i, c, hi, resume_cases h⟩))
    · cases h
  | wake i =>
    simp only [step] at h
    split at h
    · rename_i c hi
      obtain ⟨⟨htask, hflag⟩, hs'⟩ := of_guard h
      cases hs'
      exact .inr (.inr (.inl ⟨i, c, hi, .wakes htask hflag⟩))
    · cases h
  | hangUp i =>
    simp only [step] at h
    split at h
    · rename_i c hi
      obtain ⟨htask, hs'⟩ := of_guard h
      cases hs'
      exact .inr (.inr (.inl ⟨i, c, hi, .hangsUp htask⟩))
    · cases h
  | reassign daemonId interface =>
    cases h
    exact .inr (.inr (.inr (.inl ⟨_, rfl⟩)))
  | keys e =>
    obtain ⟨keys, -, rfl⟩ := Option.map_eq_some_iff.mp h
    exact .inr (.inr (.inr (.inr ⟨keys, s.blobs, rfl⟩)))
  | store sha content =>
    simp only [step, Option.some.injEq] at h
    subst h
    split
    · exact .inr (.inr (.inr (.inr ⟨s.keys, s.blobs, rfl⟩)))
    · exact .inr (.inr (.inr (.inr ⟨s.keys, _, rfl⟩)))

/-! ### The registry -/

/-- The sessions a connection accounts for in the registry. -/
def Conn.live (c : Conn α) : List Nat :=
  match c.task with
  | .gone => []
  | .replacing previous _ => previous :: (c.authed.map (·.id)).toList
  | _ => (c.authed.map (·.id)).toList

/-- The rows of the batch of session `id` that is stored and not yet counted. -/
def Conn.uncounted (c : Conn α) (id : Nat) : List Nat :=
  match c.task, c.authed with
  | .counting rows _, some session => if session.id = id then [rows] else []
  | _, _ => []

/-- The rows of each batch session `id` was answered for. -/
def answered (s : IngestServer α) (id : Nat) : List Nat :=
  (s.writes.filter fun w => w.session = id && w.answered).map fun w => w.samples.length

theorem Conn.mem_live {c : Conn α} {id : Nat} :
    id ∈ c.live ↔ c.task ≠ .gone ∧ ((∃ session, c.authed = some session ∧ session.id = id) ∨
      ∃ answer, c.task = .replacing id answer) := by
  unfold Conn.live
  split
  · rename_i htask
    simp [htask]
  · rename_i previous answer htask
    simp [htask, or_comm, eq_comm]
  · rename_i hgone hreplacing
    simp only [Option.mem_toList, Option.map_eq_some_iff]
    constructor
    · intro h
      exact ⟨fun hg => hgone hg, .inl h⟩
    · rintro ⟨-, h | ⟨answer, htask⟩⟩
      · exact h
      · exact absurd htask (hreplacing id answer)

/-- A registry entry says what its session's `HELLO` said, and counts its batches. -/
structure Entry (s : IngestServer α) (id : Nat) (l : Live) (o : Opened) : Prop where
  keyName : l.info.keyName = o.key.name
  database : l.info.database = o.database
  version : l.info.protocolVersion = o.hello.version
  daemonId : l.daemonId = o.hello.daemonId
  interfaces : l.interfaces = o.hello.devices.map Device.name
  conn : l.conn = o.conn
  counted : ∀ c, s.conns[o.conn]? = some c → ∃ rows, s.answered id = rows ++ c.uncounted id ∧
    l.info.frames = rows.sum ∧ l.info.batches = rows.length

structure Registered (s : IngestServer α) : Prop where
  ids : (s.sessions.inner.map (·.1)).Nodup
  next : s.sessions.nextId = s.opened.length
  live : ∀ id, id ∈ s.sessions.inner.map (·.1) ↔
    ∃ (i : Nat) (c : Conn α), s.conns[i]? = some c ∧ id ∈ c.live
  entry : ∀ l ∈ s.sessions.inner, ∃ o, s.opened[l.1]? = some o ∧ s.Entry l.1 l.2 o
  authed : ∀ (i : Nat) (c : Conn α) (session : IngestSession), s.conns[i]? = some c →
    c.authed = some session →
    ∃ o, s.opened[session.id]? = some o ∧ o.conn = i ∧ o.database = session.database
  previous : ∀ (i : Nat) (c : Conn α) (previous : Nat) (answer : Reply), s.conns[i]? = some c →
    c.task = .replacing previous answer →
    ∃ session o, c.authed = some session ∧ session.id ≠ previous ∧ s.opened[previous]? = some o ∧
      o.conn = i
  writes : ∀ w ∈ s.writes, ∃ o, s.opened[w.session]? = some o ∧ o.conn = w.conn ∧
    o.database = w.database

/-- The registry sees no difference. -/
structure Conn.Alike (c c' : Conn α) : Prop where
  live : c'.live = c.live
  uncounted : ∀ id, c'.uncounted id = c.uncounted id
  authed : c'.authed = c.authed
  previous : ∀ previous answer, c'.task = .replacing previous answer → c.task = c'.task

theorem init_registered (keys : KeyStore) (blobs : List (Sha × List UInt8)) :
    (init keys blobs : IngestServer α).Registered := by
  constructor <;> simp [init]

namespace Registered

/-- A session is of the connection that accounts for it. -/
theorem owner (h : s.Registered) {i id : Nat} {c : Conn α} (hi : s.conns[i]? = some c)
    (hid : id ∈ c.live) : ∃ o, s.opened[id]? = some o ∧ o.conn = i := by
  rcases (Conn.mem_live.mp hid).2 with ⟨session, hauthed, rfl⟩ | ⟨answer, htask⟩
  · obtain ⟨o, ho, hconn, -⟩ := h.authed i c session hi hauthed
    exact ⟨o, ho, hconn⟩
  · obtain ⟨-, o, -, -, ho, hconn⟩ := h.previous i c id answer hi htask
    exact ⟨o, ho, hconn⟩

/-- No two connections account for one session. -/
theorem owner_unique (h : s.Registered) {i j id : Nat} {c c' : Conn α} (hi : s.conns[i]? = some c)
    (hid : id ∈ c.live) (hj : s.conns[j]? = some c') (hid' : id ∈ c'.live) : i = j := by
  obtain ⟨o, ho, rfl⟩ := h.owner hi hid
  obtain ⟨o', ho', rfl⟩ := h.owner hj hid'
  rw [ho] at ho'
  cases ho'
  rfl

/-- The connection of a session that is registered is there. -/
theorem conn_of_entry (h : s.Registered) {l : Nat × Live} (hl : l ∈ s.sessions.inner) {o : Opened}
    (ho : s.opened[l.1]? = some o) : ∃ c, s.conns[o.conn]? = some c ∧ l.1 ∈ c.live := by
  obtain ⟨i, c, hi, hid⟩ := (h.live l.1).mp (List.mem_map_of_mem hl)
  obtain ⟨o', ho', rfl⟩ := h.owner hi hid
  rw [ho] at ho'
  cases ho'
  exact ⟨c, hi, hid⟩

/-- Nothing the registry is about has changed. -/
theorem congr (h : s.Registered) (hsessions : s'.sessions = s.sessions)
    (hopened : s'.opened = s.opened) (hwrites : s'.writes = s.writes)
    (hold : ∀ (i : Nat) (c : Conn α), s.conns[i]? = some c →
      ∃ c', s'.conns[i]? = some c' ∧ c.Alike c')
    (hnew : ∀ (i : Nat) (c' : Conn α), s'.conns[i]? = some c' →
      (∃ c, s.conns[i]? = some c ∧ c.Alike c') ∨ s.conns[i]? = none ∧ c' = {}) :
    s'.Registered := by
  have hanswered : ∀ id, s'.answered id = s.answered id := fun id => by
    rw [answered, hwrites, answered]
  constructor
  · rw [hsessions]
    exact h.ids
  · rw [hsessions, hopened]
    exact h.next
  · intro id
    rw [hsessions, h.live]
    constructor
    · rintro ⟨i, c, hi, hid⟩
      obtain ⟨c', hi', hsame⟩ := hold i c hi
      exact ⟨i, c', hi', hsame.live ▸ hid⟩
    · rintro ⟨i, c', hi', hid⟩
      rcases hnew i c' hi' with ⟨c, hi, hsame⟩ | ⟨-, rfl⟩
      · exact ⟨i, c, hi, hsame.live ▸ hid⟩
      · simp [Conn.live] at hid
  · intro l hl
    rw [hsessions] at hl
    obtain ⟨o, ho, he⟩ := h.entry l hl
    obtain ⟨c, hc, -⟩ := h.conn_of_entry hl ho
    refine ⟨o, hopened ▸ ho, { he with counted := ?_ }⟩
    intro c' hc'
    obtain ⟨c₁, hc₁, hsame⟩ := hold _ c hc
    rw [hc'] at hc₁
    cases hc₁
    rw [hanswered, hsame.uncounted]
    exact he.counted c hc
  · intro i c' session hi' hauthed
    rcases hnew i c' hi' with ⟨c, hi, hsame⟩ | ⟨-, rfl⟩
    · rw [hsame.authed] at hauthed
      rw [hopened]
      exact h.authed i c session hi hauthed
    · simp at hauthed
  · intro i c' previous answer hi' htask
    rcases hnew i c' hi' with ⟨c, hi, hsame⟩ | ⟨-, rfl⟩
    · rw [hopened, hsame.authed]
      exact h.previous i c previous answer hi ((hsame.previous _ _ htask).trans htask)
    · simp at htask
  · intro w hw
    rw [hwrites] at hw
    rw [hopened]
    exact h.writes w hw

/-- One connection has changed in nothing the registry is about. -/
theorem quiet (h : s.Registered) {i : Nat} {c c' : Conn α} (hi : s.conns[i]? = some c)
    (hsame : c.Alike c') : (s.setConn i c').Registered := by
  have hsame' : ∀ c₀ : Conn α, c₀.Alike c₀ := fun c₀ => ⟨rfl, fun _ => rfl, rfl, fun _ _ _ => rfl⟩
  refine h.congr rfl rfl rfl ?_ ?_
  · intro j c₀ hj
    by_cases hji : j = i
    · subst hji
      rw [hi] at hj
      cases hj
      exact ⟨c', (getElem?_set_iff hi).mpr (.inl ⟨rfl, rfl⟩), hsame⟩
    · exact ⟨c₀, (getElem?_set_iff hi).mpr (.inr ⟨hji, hj⟩), hsame' c₀⟩
  · intro j c₀ hj
    rcases (getElem?_set_iff hi).mp hj with ⟨rfl, rfl⟩ | ⟨-, hj⟩
    · exact .inl ⟨c, hi, hsame⟩
    · exact .inl ⟨c₀, hj, hsame' c₀⟩

/-- The connections after one of them has changed account for the sessions `live` says. -/
theorem live_set (h : s.Registered) {i : Nat} {c c' : Conn α} (hi : s.conns[i]? = some c)
    {ids : List Nat} (hsame : ∀ id, id ∈ ids ↔
      (id ∈ s.sessions.inner.map (·.1) ∧ id ∉ c.live) ∨ id ∈ c'.live) (id : Nat) :
    id ∈ ids ↔ ∃ (j : Nat) (c₀ : Conn α), (s.conns.set i c')[j]? = some c₀ ∧ id ∈ c₀.live := by
  rw [hsame, exists_set_iff (p := fun _ c₀ => id ∈ c₀.live) hi, h.live,
    exists_slot_iff (p := fun _ c₀ => id ∈ c₀.live) hi]
  constructor
  · rintro (⟨hmine | hother, hnot⟩ | hnew)
    · exact absurd hmine hnot
    · exact .inr hother
    · exact .inl hnew
  · rintro (hnew | ⟨j, c₀, hj, hc₀, hid⟩)
    · exact .inr hnew
    · exact .inl ⟨.inr ⟨j, c₀, hj, hc₀, hid⟩, fun hmine => hj (h.owner_unique hc₀ hid hi hmine)⟩

/-- The same connections account for the same sessions when the changed one keeps its own. -/
theorem live_set_same (h : s.Registered) {i : Nat} {c c' : Conn α} (hi : s.conns[i]? = some c)
    (hlive : c'.live = c.live) (id : Nat) :
    id ∈ s.sessions.inner.map (·.1) ↔
      ∃ (j : Nat) (c₀ : Conn α), (s.conns.set i c')[j]? = some c₀ ∧ id ∈ c₀.live := by
  refine h.live_set hi (fun id => ?_) id
  rw [hlive]
  constructor
  · intro hid
    by_cases hmine : id ∈ c.live
    · exact .inr hmine
    · exact .inl ⟨hid, hmine⟩
  · rintro (⟨hid, -⟩ | hid)
    · exact hid
    · exact (h.live id).mpr ⟨i, c, hi, hid⟩

/-- A connection that keeps its session leaves every session with its entry of `opened`. -/
theorem authed_set (h : s.Registered) {i : Nat} {c c' : Conn α} (hi : s.conns[i]? = some c)
    (hauthed : c'.authed = c.authed) {j : Nat} {c₀ : Conn α} {session : IngestSession}
    (hj : (s.conns.set i c')[j]? = some c₀) (hsession : c₀.authed = some session) :
    ∃ o, s.opened[session.id]? = some o ∧ o.conn = j ∧ o.database = session.database := by
  rcases (getElem?_set_iff hi).mp hj with ⟨rfl, rfl⟩ | ⟨-, hj⟩
  · rw [hauthed] at hsession
    exact h.authed j c session hi hsession
  · exact h.authed j c₀ session hj hsession

/-- A connection that replaces no session leaves those being replaced as they were. -/
theorem previous_set (h : s.Registered) {i : Nat} {c c' : Conn α} (hi : s.conns[i]? = some c)
    (hprevious : ∀ previous answer, c'.task ≠ .replacing previous answer) {j : Nat} {c₀ : Conn α}
    {previous : Nat} {answer : Reply} (hj : (s.conns.set i c')[j]? = some c₀)
    (hreplacing : c₀.task = .replacing previous answer) :
    ∃ session o, c₀.authed = some session ∧ session.id ≠ previous ∧
      s.opened[previous]? = some o ∧ o.conn = j := by
  rcases (getElem?_set_iff hi).mp hj with ⟨rfl, rfl⟩ | ⟨-, hj⟩
  · exact absurd hreplacing (hprevious previous answer)
  · exact h.previous j c₀ previous answer hj hreplacing

/-- What was committed is of sessions that were opened. -/
theorem answered_of_ge (h : s.Registered) {id : Nat} (hid : s.opened.length ≤ id) :
    s.answered id = [] := by
  unfold answered
  rw [List.map_eq_nil_iff, List.filter_eq_nil_iff]
  intro w hw hmatch
  obtain ⟨o, ho, -⟩ := h.writes w hw
  have hlt := (List.getElem?_eq_some_iff.mp ho).1
  have hsession : w.session = id := by
    simp at hmatch
    exact hmatch.1
  omega

/-- A `HELLO` opens a session, under an id no session has had. -/
theorem opens (h : s.Registered) {i : Nat} {c c' : Conn α} (hi : s.conns[i]? = some c)
    {h₀ : Hello} {info : KeyInfo} {keys : KeyStore} {name : String}
    (htask : c.task = .checked h₀ info keys) (hlive : c'.live = c.live ++ [s.sessions.nextId])
    (huncounted : ∀ id, c'.uncounted id = [])
    (hauthed : c'.authed = some ⟨name, s.sessions.nextId, h₀.daemonId, h₀.devices⟩)
    (hprevious : ∀ previous answer, c'.task = .replacing previous answer →
      ∃ session, c.authed = some session ∧ session.id = previous) :
    Registered { s.setConn i c' with
      sessions := s.sessions.open ⟨info.name, name, h₀.version, 0, 0⟩ h₀ i
      opened := s.opened ++ [⟨i, h₀, info, keys, name⟩] } := by
  have hold : ∀ {id : Nat} {o : Opened}, s.opened[id]? = some o →
      (s.opened ++ [⟨i, h₀, info, keys, name⟩])[id]? = some o :=
    fun ho => getElem?_snoc_iff.mpr (.inl ho)
  have hfresh : s.sessions.nextId ∉ s.sessions.inner.map (·.1) := by
    intro hmem
    obtain ⟨j, c₀, hj, hid⟩ := (h.live _).mp hmem
    obtain ⟨o, ho, -⟩ := h.owner hj hid
    have hlt := (List.getElem?_eq_some_iff.mp ho).1
    rw [h.next] at hlt
    omega
  have hids : ((s.sessions.open ⟨info.name, name, h₀.version, 0, 0⟩ h₀ i).inner.map (·.1)) =
      s.sessions.inner.map (·.1) ++ [s.sessions.nextId] := by
    simp [Sessions.open]
  constructor
  · show (List.map _ _).Nodup
    rw [hids, List.nodup_append]
    refine ⟨h.ids, List.nodup_singleton _, ?_⟩
    rintro id hid _ hnew rfl
    rw [List.mem_singleton.mp hnew] at hid
    exact hfresh hid
  · show s.sessions.nextId + 1 = (s.opened ++ _).length
    rw [List.length_append, h.next]
    rfl
  · refine h.live_set hi fun id => ?_
    rw [hids, hlive]
    simp only [List.mem_append, List.mem_singleton]
    constructor
    · rintro (hid | rfl)
      · by_cases hmine : id ∈ c.live
        · exact .inr (.inl hmine)
        · exact .inl ⟨hid, hmine⟩
      · exact .inr (.inr rfl)
    · rintro (⟨hid, -⟩ | hid | rfl)
      · exact .inl hid
      · exact .inl ((h.live id).mpr ⟨i, c, hi, hid⟩)
      · exact .inr rfl
  · intro l hl
    rcases List.mem_append.mp hl with hl | hl
    · obtain ⟨o, ho, he⟩ := h.entry l hl
      refine ⟨o, hold ho, { he with counted := ?_ }⟩
      intro c₀ hc₀
      rcases (getElem?_set_iff hi).mp hc₀ with ⟨rfl, rfl⟩ | ⟨-, hc₀⟩
      · -- Nothing of the connection's was uncounted, and nothing is.
        have hcount := he.counted c hi
        have hnone : c.uncounted l.1 = [] := by simp [Conn.uncounted, htask]
        rw [huncounted, ← hnone]
        exact hcount
      · exact he.counted c₀ hc₀
    · obtain rfl := List.mem_singleton.mp hl
      refine ⟨⟨i, h₀, info, keys, name⟩, getElem?_snoc_iff.mpr (.inr ⟨h.next, rfl⟩),
        ⟨rfl, rfl, rfl, rfl, rfl, rfl, ?_⟩⟩
      intro c₀ hc₀
      rcases (getElem?_set_iff hi).mp hc₀ with ⟨-, rfl⟩ | ⟨hne, -⟩
      · refine ⟨[], ?_, rfl, rfl⟩
        rw [huncounted, List.append_nil]
        exact h.answered_of_ge (Nat.le_of_eq h.next.symm)
      · exact absurd rfl hne
  · intro j c₀ session hj hsession
    rcases (getElem?_set_iff hi).mp hj with ⟨rfl, rfl⟩ | ⟨-, hj⟩
    · rw [hauthed] at hsession
      cases hsession
      exact ⟨_, getElem?_snoc_iff.mpr (.inr ⟨h.next, rfl⟩), rfl, rfl⟩
    · obtain ⟨o, ho, hrest⟩ := h.authed j c₀ session hj hsession
      exact ⟨o, hold ho, hrest⟩
  · intro j c₀ previous answer hj hreplacing
    rcases (getElem?_set_iff hi).mp hj with ⟨rfl, rfl⟩ | ⟨-, hj⟩
    · obtain ⟨session, hsession, rfl⟩ := hprevious previous answer hreplacing
      obtain ⟨o, ho, hconn, -⟩ := h.authed j c session hi hsession
      have hlt := (List.getElem?_eq_some_iff.mp ho).1
      refine ⟨_, o, hauthed, ?_, hold ho, hconn⟩
      show s.sessions.nextId ≠ session.id
      rw [h.next]
      omega
    · obtain ⟨session, o, hsession, hne, ho, hconn⟩ := h.previous j c₀ previous answer hj hreplacing
      exact ⟨session, o, hsession, hne, hold ho, hconn⟩
  · intro w hw
    obtain ⟨o, ho, hrest⟩ := h.writes w hw
    exact ⟨o, hold ho, hrest⟩

/-- A connection's session leaves the registry, and the connection no longer accounts for it. -/
theorem closes (h : s.Registered) {i id : Nat} {c c' : Conn α} (hi : s.conns[i]? = some c)
    (hmine : id ∈ c.live) (hlive : ∀ id', id' ∈ c'.live ↔ id' ∈ c.live ∧ id' ≠ id)
    (huncounted : ∀ id, c'.uncounted id = c.uncounted id) (hauthed : c'.authed = c.authed)
    (hprevious : ∀ previous answer, c'.task ≠ .replacing previous answer) :
    Registered { s.setConn i c' with sessions := s.sessions.close id } := by
  have hids : ∀ id', id' ∈ (s.sessions.close id).inner.map (·.1) ↔
      id' ∈ s.sessions.inner.map (·.1) ∧ id' ≠ id := by
    intro id'
    simp only [Sessions.close, List.mem_map, List.mem_filter, decide_eq_true_eq]
    constructor
    · rintro ⟨l, ⟨hl, hne⟩, rfl⟩
      exact ⟨⟨l, hl, rfl⟩, hne⟩
    · rintro ⟨⟨l, hl, rfl⟩, hne⟩
      exact ⟨l, ⟨hl, hne⟩, rfl⟩
  constructor
  · exact h.ids.sublist (List.filter_sublist.map _)
  · exact h.next
  · refine h.live_set hi fun id' => ?_
    rw [hids, hlive]
    constructor
    · rintro ⟨hid', hne⟩
      by_cases hin : id' ∈ c.live
      · exact .inr ⟨hin, hne⟩
      · exact .inl ⟨hid', hin⟩
    · rintro (⟨hid', hin⟩ | ⟨hin, hne⟩)
      · exact ⟨hid', fun heq => hin (heq ▸ hmine)⟩
      · exact ⟨(h.live id').mpr ⟨i, c, hi, hin⟩, hne⟩
  · intro l hl
    obtain ⟨o, ho, he⟩ := h.entry l (List.mem_filter.mp hl).1
    refine ⟨o, ho, { he with counted := ?_ }⟩
    intro c₀ hc₀
    rcases (getElem?_set_iff hi).mp hc₀ with ⟨rfl, rfl⟩ | ⟨-, hc₀⟩
    · rw [huncounted]
      exact he.counted c hi
    · exact he.counted c₀ hc₀
  · exact fun _ _ _ => h.authed_set hi hauthed
  · exact fun _ _ _ _ => h.previous_set hi hprevious
  · exact h.writes

/-- A batch is counted in its session's entry. -/
theorem counts (h : s.Registered) {i rows : Nat} {c c' : Conn α} (hi : s.conns[i]? = some c)
    {answer : Reply} {session : IngestSession} (htask : c.task = .counting rows answer)
    (hsession : c.authed = some session) (hlive : c'.live = c.live)
    (huncounted : ∀ id, c'.uncounted id = []) (hauthed : c'.authed = c.authed)
    (hprevious : ∀ previous answer, c'.task ≠ .replacing previous answer) :
    Registered { s.setConn i c' with sessions := s.sessions.count session.id rows } := by
  have hids : (s.sessions.count session.id rows).inner.map (·.1) = s.sessions.inner.map (·.1) := by
    simp only [Sessions.count, List.map_map]
    refine List.map_congr_left fun l _ => ?_
    simp only [Function.comp_apply]
    split <;> rfl
  constructor
  · show (List.map _ _).Nodup
    rw [hids]
    exact h.ids
  · exact h.next
  · intro id
    rw [hids]
    exact h.live_set_same hi hlive id
  · intro l hl
    obtain ⟨l₀, hl₀, rfl⟩ := List.mem_map.mp hl
    obtain ⟨o, ho, he⟩ := h.entry l₀ hl₀
    by_cases hid : l₀.1 = session.id
    · rw [if_pos hid]
      refine ⟨o, ho, { he with counted := ?_ }⟩
      intro c₀ hc₀
      -- The session is this connection's.
      obtain ⟨o', ho', hconn, -⟩ := h.authed i c session hi hsession
      rw [← hid, ho] at ho'
      cases ho'
      subst hconn
      obtain ⟨rows', hanswered, hframes, hbatches⟩ := he.counted c hi
      have hone : c.uncounted l₀.1 = [rows] := by simp [Conn.uncounted, htask, hsession, hid]
      obtain ⟨-, rfl⟩ | ⟨hne, -⟩ := (getElem?_set_iff hi).mp hc₀
      · refine ⟨rows' ++ [rows], ?_, ?_, ?_⟩
        · rw [huncounted, List.append_nil, ← hone]
          exact hanswered
        · simp [hframes]
        · simp [hbatches]
      · exact absurd rfl hne
    · rw [if_neg hid]
      refine ⟨o, ho, { he with counted := ?_ }⟩
      intro c₀ hc₀
      rcases (getElem?_set_iff hi).mp hc₀ with ⟨rfl, rfl⟩ | ⟨-, hc₀⟩
      · have hcount := he.counted c hi
        have hnone : c.uncounted l₀.1 = [] := by
          simp [Conn.uncounted, htask, hsession, Ne.symm hid]
        rw [huncounted, ← hnone]
        exact hcount
      · exact he.counted c₀ hc₀
  · exact fun _ _ _ => h.authed_set hi hauthed
  · exact fun _ _ _ _ => h.previous_set hi hprevious
  · exact h.writes

/-- A batch of the connection's session is committed. -/
theorem stores (h : s.Registered) {i : Nat} {c c' : Conn α} (hi : s.conns[i]? = some c)
    {session : IngestSession} {samples : List α} {answered : Bool}
    (hsession : c.authed = some session) (hwaiting : c.task = .waiting) (hlive : c'.live = c.live)
    (huncounted : ∀ id, c'.uncounted id =
      if session.id = id ∧ answered = true then [samples.length] else [])
    (hauthed : c'.authed = c.authed)
    (hprevious : ∀ previous answer, c'.task ≠ .replacing previous answer) :
    Registered { s.setConn i c' with
      writes := s.writes ++ [⟨i, session.id, session.database, samples, answered⟩] } := by
  obtain ⟨o₁, ho₁, hconn₁, hdatabase₁⟩ := h.authed i c session hi hsession
  have hanswered : ∀ id, ({ s.setConn i c' with
        writes := s.writes ++ [⟨i, session.id, session.database, samples, answered⟩] } :
        IngestServer α).answered id =
      s.answered id ++ if session.id = id ∧ answered = true then [samples.length] else [] := by
    intro id
    simp only [IngestServer.answered, List.filter_append, List.map_append]
    congr 1
    by_cases hmatch : session.id = id ∧ answered = true
    · simp [hmatch.1, hmatch.2]
    · rw [if_neg hmatch, List.filter_cons_of_neg (by simpa using hmatch)]
      rfl
  constructor
  · exact h.ids
  · exact h.next
  · exact h.live_set_same hi hlive
  · intro l hl
    obtain ⟨o, ho, he⟩ := h.entry l hl
    refine ⟨o, ho, { he with counted := ?_ }⟩
    intro c₀ hc₀
    rw [hanswered]
    rcases (getElem?_set_iff hi).mp hc₀ with ⟨hconn, rfl⟩ | ⟨hne, hc₀⟩
    · obtain ⟨rows, hrows, hframes, hbatches⟩ := he.counted c (hconn ▸ hi)
      have hnone : c.uncounted l.1 = [] := by simp [Conn.uncounted, hwaiting]
      rw [hnone, List.append_nil] at hrows
      exact ⟨rows, by rw [hrows, huncounted], hframes, hbatches⟩
    · -- Another connection's session is not this one.
      have hother : session.id ≠ l.1 := by
        intro heq
        rw [← heq, ho₁] at ho
        cases ho
        exact hne hconn₁
      rw [if_neg (fun hmatch => hother hmatch.1), List.append_nil]
      exact he.counted c₀ hc₀
  · exact fun _ _ _ => h.authed_set hi hauthed
  · exact fun _ _ _ _ => h.previous_set hi hprevious
  · intro w hw
    rcases List.mem_append.mp hw with hw | hw
    · exact h.writes w hw
    · obtain rfl := List.mem_singleton.mp hw
      exact ⟨o₁, ho₁, hconn₁, hdatabase₁⟩

/-- A turn keeps the registry. -/
theorem turn (h : s.Registered) {i : Nat} {c : Conn α} (hi : s.conns[i]? = some c)
    (hturn : Turn cfg machine s i c s') : s'.Registered := by
  cases hturn with
  | answers m inbox action r served htask _ _ _ =>
    exact h.quiet hi ⟨by simp [Conn.live, Conn.answering, htask],
      fun _ => by simp [Conn.uncounted, Conn.answering, htask], rfl,
      fun _ _ hnot => by simp [Conn.answering] at hnot⟩
  | heeds m inbox status _ _ _ => exact h.quiet hi ⟨rfl, fun _ => rfl, rfl, fun _ _ _ => rfl⟩
  | checks m inbox h₀ info admitted htask _ _ _ =>
    exact h.quiet hi ⟨by simp [Conn.live, htask], fun _ => by simp [Conn.uncounted, htask], rfl,
      fun _ _ hnot => by simp at hnot⟩
  | stores m inbox seq samples session htask _ _ hsession =>
    exact h.stores hi hsession htask (by simp [Conn.live, htask])
      (fun id => by simp [Conn.uncounted, hsession]) rfl (by simp)
  | losesAnswer m inbox seq samples session htask _ _ hsession =>
    exact h.stores hi hsession htask (by simp [Conn.live, Conn.answering, htask])
      (fun id => by simp [Conn.uncounted, Conn.answering]) rfl (by simp [Conn.answering])
  | refuses h₀ info keys status htask _ =>
    exact h.quiet hi ⟨by simp [Conn.live, Conn.answering, htask],
      fun _ => by simp [Conn.uncounted, Conn.answering, htask], rfl,
      fun _ _ hnot => by simp [Conn.answering] at hnot⟩
  | opens h₀ info keys m name assignments c' htask _ hc' =>
    rcases hc' with ⟨hnone, rfl⟩ | ⟨previous, hprevious, rfl⟩
    · exact h.opens hi htask (by simp [Conn.live, htask, hnone])
        (fun id => by simp [Conn.uncounted]) rfl (by simp)
    · refine h.opens hi htask (by simp [Conn.live, htask, hprevious])
        (fun id => by simp [Conn.uncounted]) rfl ?_
      intro previous' answer hreplacing
      cases hreplacing
      exact ⟨previous, hprevious, rfl⟩
  | closesPrevious previous answer htask =>
    obtain ⟨session, -, hsession, hne, -⟩ := h.previous i c previous answer hi htask
    refine h.closes hi (by simp [Conn.live, htask]) ?_
      (fun id => by simp [Conn.uncounted, Conn.answering, htask]) rfl (by simp [Conn.answering])
    intro id
    simp only [Conn.live, Conn.answering, htask, hsession, Option.map_some, Option.toList_some,
      List.mem_cons, List.not_mem_nil, or_false]
    constructor
    · rintro rfl
      exact ⟨.inr rfl, hne⟩
    · rintro ⟨rfl | hid, hnot⟩
      · exact absurd rfl hnot
      · exact hid
  | counts rows answer session htask hsession =>
    exact h.counts hi htask hsession (by simp [Conn.live, Conn.answering, htask])
      (fun id => by simp [Conn.uncounted, Conn.answering]) rfl (by simp [Conn.answering])
  | leaves sessions htask hsessions =>
    rcases hsessions with ⟨hnone, rfl⟩ | ⟨session, hsession, rfl⟩
    · exact h.quiet hi ⟨by simp [Conn.live, htask, hnone],
        fun _ => by simp [Conn.uncounted, htask], rfl, fun _ _ hnot => by simp at hnot⟩
    · refine h.closes hi (by simp [Conn.live, htask, hsession]) ?_
        (fun id => by simp [Conn.uncounted, htask]) rfl (by simp)
      intro id
      simp [Conn.live, htask, hsession]
  | wakes htask _ =>
    exact h.quiet hi ⟨by simp [Conn.live, htask], fun _ => by simp [Conn.uncounted, htask], rfl,
      fun _ _ hnot => by simp at hnot⟩
  | hangsUp htask =>
    exact h.quiet hi ⟨by simp [Conn.live, htask], fun _ => by simp [Conn.uncounted, htask], rfl,
      fun _ _ hnot => by simp at hnot⟩

/-- A step keeps the registry. -/
theorem step {e : IngestEvent α} (h : s.Registered) (hs : s.step cfg machine e = some s') :
    s'.Registered := by
  have hsame : ∀ c₀ : Conn α, c₀.Alike c₀ := fun c₀ => ⟨rfl, fun _ => rfl, rfl, fun _ _ _ => rfl⟩
  rcases step_cases hs with rfl | ⟨i, c, hi, hclient⟩ | ⟨i, c, hi, hturn⟩ | ⟨told, rfl⟩ |
    ⟨keys, blobs, rfl⟩
  · refine h.congr rfl rfl rfl ?_ ?_
    · intro j c₀ hj
      exact ⟨c₀, getElem?_snoc_iff.mpr (.inl hj), hsame c₀⟩
    · intro j c₀ hj
      rcases getElem?_snoc_iff.mp hj with hj | ⟨rfl, rfl⟩
      · exact .inl ⟨c₀, hj, hsame c₀⟩
      · exact .inr ⟨List.getElem?_eq_none (Nat.le_refl _), rfl⟩
  · cases hclient with
    | arrives m => exact h.quiet hi ⟨rfl, fun _ => rfl, rfl, fun _ _ _ => rfl⟩
    | takes r outbox _ => exact h.quiet hi ⟨rfl, fun _ => rfl, rfl, fun _ _ _ => rfl⟩
  · exact h.turn hi hturn
  · have htold : ∀ (j : Nat) (c₀ : Conn α),
        c₀.Alike (if j ∈ told then { c₀ with reassigned := true } else c₀) := by
      intro j c₀
      split
      · exact ⟨rfl, fun _ => rfl, rfl, fun _ _ _ => rfl⟩
      · exact hsame c₀
    refine h.congr rfl rfl rfl ?_ ?_
    · intro j c₀ hj
      exact ⟨_, by rw [List.getElem?_mapIdx, hj]; rfl, htold j c₀⟩
    · intro j c₀ hj
      rw [List.getElem?_mapIdx] at hj
      obtain ⟨c, hc, rfl⟩ := Option.map_eq_some_iff.mp hj
      exact .inl ⟨c, hc, htold j c⟩
  · exact h.congr rfl rfl rfl (fun j c₀ hj => ⟨c₀, hj, hsame c₀⟩)
      fun j c₀ hj => .inl ⟨c₀, hj, hsame c₀⟩

end Registered

/-! ### The batches -/

/-- The `HELLO`'s key was valid and may ingest, and the session is for the database it came to. -/
structure Vouched (cfg : Config) (o : Opened) : Prop where
  valid : o.keys.validate cfg.hashKey o.hello.token = some o.key
  ingests : o.key.role.allowsIngest = true
  database : IngestServer.database o.key o.hello.database = .ok o.database
  named : cfg.validDatabaseName o.database = true
  notOurs : o.database ≠ cfg.defaultDatabase

theorem authenticate_ok {keys : KeyStore} {admitted : Bool} {h : Hello} {info : KeyInfo}
    (hok : authenticate cfg keys admitted h = .ok info) :
    keys.validate cfg.hashKey h.token = some info ∧ info.role.allowsIngest = true := by
  unfold authenticate validateFrom at hok
  cases hvalid : keys.validate cfg.hashKey h.token with
  | none =>
    rw [hvalid] at hok
    cases admitted <;> cases hok
  | some info' =>
    rw [hvalid] at hok
    simp only at hok
    split at hok
    · rename_i hrole
      cases hok
      exact ⟨rfl, hrole⟩
    · cases hok

theorem ensureDatabase_ok {name : String} {allowCreate : Bool} {m : Ensuring}
    (h : ensureDatabase cfg name allowCreate m = .ok ()) :
    cfg.validDatabaseName name = true ∧ name ≠ cfg.defaultDatabase := by
  unfold ensureDatabase at h
  split at h
  · cases h
  · rename_i hvalid
    split at h
    · cases h
    · rename_i hours
      exact ⟨by simpa using hvalid, by simpa [Config.isGatewayDatabase] using hours⟩

theorem welcome_ok {h : Hello} {info : KeyInfo} {m : Met} {name : String}
    {assignments : List Assignment} (hok : welcome cfg h info m = .ok (name, assignments)) :
    database info h.database = .ok name ∧ cfg.validDatabaseName name = true ∧
      name ≠ cfg.defaultDatabase := by
  unfold welcome at hok
  split at hok
  · cases hok
  · rename_i name' hname
    split at hok
    · cases hok
    · cases hok
    · rename_i hensured
      cases hok
      exact ⟨hname, ensureDatabase_ok hensured⟩

/-- Every session was opened by a `HELLO` that may have it, and the key store it was checked against
is one the run came by. -/
structure Authorised (cfg : Config) (past : KeyStore → Prop) (s : IngestServer α) : Prop where
  checked : ∀ c ∈ s.conns, ∀ h info keys, c.task = .checked h info keys →
    past keys ∧ keys.validate cfg.hashKey h.token = some info ∧ info.role.allowsIngest = true
  opened : ∀ o ∈ s.opened, past o.keys ∧ Vouched cfg o

theorem Authorised.step {past : KeyStore → Prop} {e : IngestEvent α} (h : Authorised cfg past s)
    (hnow : past s.keys) (hs : s.step cfg machine e = some s') : Authorised cfg past s' := by
  have htask : ∀ {i : Nat} {c c' : Conn α}, s.conns[i]? = some c →
      (∀ h₀ info keys, c'.task = .checked h₀ info keys → c.task = .checked h₀ info keys ∨
        past keys ∧ keys.validate cfg.hashKey h₀.token = some info ∧
          info.role.allowsIngest = true) →
      ∀ c₀ ∈ s.conns.set i c', ∀ h₀ info keys, c₀.task = .checked h₀ info keys →
        past keys ∧ keys.validate cfg.hashKey h₀.token = some info ∧
          info.role.allowsIngest = true := by
    intro i c c' hi hc' c₀ hc₀ h₀ info keys hchecked
    rcases List.mem_or_eq_of_mem_set hc₀ with hc₀ | rfl
    · exact h.checked c₀ hc₀ h₀ info keys hchecked
    · rcases hc' h₀ info keys hchecked with hc | hvouched
      · exact h.checked c (List.mem_of_getElem? hi) h₀ info keys hc
      · exact hvouched
  rcases step_cases hs with rfl | ⟨i, c, hi, hclient⟩ | ⟨i, c, hi, hturn⟩ | ⟨told, rfl⟩ |
    ⟨keys, blobs, rfl⟩
  · refine ⟨fun c hc => ?_, h.opened⟩
    rcases List.mem_append.mp hc with hc | hc
    · exact h.checked c hc
    · obtain rfl := List.mem_singleton.mp hc
      intro h₀ info keys hchecked
      cases hchecked
  · cases hclient with
    | arrives m => exact ⟨htask hi fun _ _ _ h₁ => .inl h₁, h.opened⟩
    | takes r outbox _ => exact ⟨htask hi fun _ _ _ h₁ => .inl h₁, h.opened⟩
  · cases hturn with
    | answers m inbox action r served _ _ _ _ =>
      exact ⟨htask hi fun _ _ _ h₁ => by simp [Conn.answering] at h₁, h.opened⟩
    | heeds m inbox status _ _ _ => exact ⟨htask hi fun _ _ _ h₁ => .inl h₁, h.opened⟩
    | checks m inbox h₀ info admitted _ _ _ hauth =>
      refine ⟨htask hi fun h₁ info₁ keys₁ hchecked => ?_, h.opened⟩
      cases hchecked
      exact .inr ⟨hnow, authenticate_ok hauth⟩
    | stores m inbox seq samples session _ _ _ _ =>
      exact ⟨htask hi fun _ _ _ h₁ => by simp at h₁, h.opened⟩
    | losesAnswer m inbox seq samples session _ _ _ _ =>
      exact ⟨htask hi fun _ _ _ h₁ => by simp [Conn.answering] at h₁, h.opened⟩
    | refuses h₀ info keys status _ _ =>
      exact ⟨htask hi fun _ _ _ h₁ => by simp [Conn.answering] at h₁, h.opened⟩
    | opens h₀ info keys m name assignments c' hchecked hwelcome hc' =>
      obtain ⟨hpast, hvalid, hingests⟩ :=
        h.checked c (List.mem_of_getElem? hi) h₀ info keys hchecked
      obtain ⟨hname, hvalidName, hours⟩ := welcome_ok hwelcome
      refine ⟨htask hi fun _ _ _ h₁ => ?_, fun o ho => ?_⟩
      · rcases hc' with ⟨-, rfl⟩ | ⟨previous, -, rfl⟩ <;> simp at h₁
      · rcases List.mem_append.mp ho with ho | ho
        · exact h.opened o ho
        · obtain rfl := List.mem_singleton.mp ho
          exact ⟨hpast, hvalid, hingests, hname, hvalidName, hours⟩
    | closesPrevious previous answer _ =>
      exact ⟨htask hi fun _ _ _ h₁ => by simp [Conn.answering] at h₁, h.opened⟩
    | counts rows answer session _ _ =>
      exact ⟨htask hi fun _ _ _ h₁ => by simp [Conn.answering] at h₁, h.opened⟩
    | leaves sessions _ _ => exact ⟨htask hi fun _ _ _ h₁ => by simp at h₁, h.opened⟩
    | wakes _ _ => exact ⟨htask hi fun _ _ _ h₁ => by simp at h₁, h.opened⟩
    | hangsUp _ => exact ⟨htask hi fun _ _ _ h₁ => by simp at h₁, h.opened⟩
  · refine ⟨fun c hc h₀ info keys hchecked => ?_, h.opened⟩
    obtain ⟨j, hj, rfl⟩ := List.mem_mapIdx.mp hc
    refine h.checked _ (List.getElem_mem hj) h₀ info keys ?_
    split at hchecked
    · exact hchecked
    · exact hchecked
  · exact ⟨h.checked, h.opened⟩

theorem Authorised.mono {past past' : KeyStore → Prop} (h : Authorised cfg past s)
    (hpast : ∀ keys, past keys → past' keys) : Authorised cfg past' s where
  checked c hc h₀ info keys htask := by
    obtain ⟨hk, hrest⟩ := h.checked c hc h₀ info keys htask
    exact ⟨hpast keys hk, hrest⟩
  opened o ho := ⟨hpast _ (h.opened o ho).1, (h.opened o ho).2⟩

theorem database_ok {info : KeyInfo} {requested name : String}
    (h : database info requested = .ok name) :
    (∀ pin, info.databasePin = some pin → name = pin) ∧ (requested ≠ "" → name = requested) ∧
      (requested = "" → info.databasePin = some name) := by
  unfold database at h
  cases hpin : info.databasePin with
  | none =>
    rw [hpin] at h
    simp only at h
    split at h
    · cases h
    · rename_i hne
      cases h
      exact ⟨by simp, fun _ => rfl, fun hempty => absurd hempty hne⟩
  | some pin =>
    rw [hpin] at h
    simp only at h
    split at h
    · rename_i heq
      cases h
      refine ⟨?_, fun hne => ?_, fun _ => rfl⟩
      · rintro _ ⟨⟩
        rfl
      · exact (heq.resolve_left hne).symm
    · cases h

/-- Authorised by the key stores the run has come by. -/
def AuthorisedAfter (cfg : Config) (machine : SessionMachine α) (keys : KeyStore)
    (blobs : List (Sha × List UInt8)) (es : List (IngestEvent α)) (s : IngestServer α) : Prop :=
  Authorised cfg (fun k => ∃ before after t, es = before ++ after ∧
    runs (step cfg machine) (init keys blobs) before = some t ∧ t.keys = k) s

theorem authorisedAfter_of_runs {keys : KeyStore} {blobs : List (Sha × List UInt8)}
    {es : List (IngestEvent α)}
    (hrun : runs (step cfg machine) (init keys blobs) es = some s) :
    AuthorisedAfter cfg machine keys blobs es s := by
  refine holds_after_runs ?_ ?_ hrun
  · constructor <;> simp [init]
  · intro es e s s' hes hinv hs
    have hnow := hinv.step ⟨es, [], s, by simp, hes, rfl⟩ hs
    refine hnow.mono ?_
    rintro k ⟨before, after, t, rfl, ht, hk⟩
    exact ⟨before, after ++ [e], t, by simp, ht, hk⟩

/-- Whose batch went where.  Every batch committed in a run belongs to a session opened on its
connection, by a `HELLO` whose key the store of that moment of the run held valid, with a role that
may ingest; and it went to that session's database, which is the key's pin if it has one, is the one
the `HELLO` named if it named one, has a valid name, and is never the gateway's own. -/
theorem run_authorised (keys : KeyStore) (blobs : List (Sha × List UInt8))
    (es : List (IngestEvent α)) (s : IngestServer α)
    (hrun : runs (step cfg machine) (init keys blobs) es = some s) (w : Stored α)
    (hw : w ∈ s.writes) :
    ∃ o, s.opened[w.session]? = some o ∧ o.conn = w.conn ∧ o.database = w.database ∧
      (∃ before after t, es = before ++ after ∧
        runs (step cfg machine) (init keys blobs) before = some t ∧ t.keys = o.keys) ∧
      o.keys.validate cfg.hashKey o.hello.token = some o.key ∧ o.key.role.allowsIngest = true ∧
      (∀ pin, o.key.databasePin = some pin → w.database = pin) ∧
      (o.hello.database ≠ "" → w.database = o.hello.database) ∧
      (o.hello.database = "" → o.key.databasePin = some w.database) ∧
      cfg.validDatabaseName w.database = true ∧ w.database ≠ cfg.defaultDatabase := by
  have h : s.Registered :=
    invariant_of_runs Registered.step (init_registered keys blobs) hrun
  have hauth := authorisedAfter_of_runs hrun
  obtain ⟨o, ho, hconn, hdatabase⟩ := h.writes w hw
  obtain ⟨hpast, hv⟩ := hauth.opened o (List.mem_of_getElem? ho)
  obtain ⟨hpin, hrequested, hunnamed⟩ := database_ok hv.database
  rw [hdatabase] at hpin hrequested hunnamed
  exact ⟨o, ho, hconn, hdatabase, hpast, hv.valid, hv.ingests, hpin, hrequested, hunnamed,
    hdatabase ▸ hv.named, hdatabase ▸ hv.notOurs⟩

/-! ### A run -/

/-- A protocol crate that hands everything over. -/
def plainMachine : SessionMachine Nat where
  offers accepted m action :=
    match m, action with
    | .hello h, .hello h' => h = h'
    | .batch seq samples, .batch seq' samples' => accepted && seq = seq' && samples = samples'
    | .ping, .reply .pong => true
    | .catalogueGet sha offset, .catalogueGet sha' offset' =>
      accepted && sha = sha' && offset = offset'
    | .catalogueStatus status, .catalogueStatus status' => accepted && status = status'
    | _, _ => false
  acceptedVersion _ := 3
  answerCatalogue sha offset found :=
    match found with
    | .ok content => ⟨sha, offset, .ok, content.drop offset, none⟩
    | .error status => ⟨sha, offset, status, [], none⟩

theorem plainMachine_lawful : plainMachine.Lawful := by
  constructor
  · intro accepted m r h
    cases m <;> cases r <;> simp_all [plainMachine]
  · intro accepted m h' h
    cases m <;> simp_all [plainMachine]
  · intro accepted m status h
    cases m <;> simp_all [plainMachine]
  · intro accepted m seq samples h
    cases m <;> simp_all [plainMachine]
  · intro accepted m seq status h
    cases m <;> simp_all [plainMachine]
  · intro accepted m sha offset h
    cases m <;> simp_all [plainMachine]
  · intro accepted m status h
    cases m <;> simp_all [plainMachine]

/-- The admin key is `admin`, and the gateway's own database `wiretap`. -/
def plainConfig : Config where
  validDatabaseName _ := true
  defaultDatabase := "wiretap"
  autoCreateDatabases := true
  hashKey key := key

/-- No key but the admin's. -/
def adminOnly : KeyStore :=
  .init ⟨[], 1, List.nodup_nil, List.nodup_nil, by simp⟩ (some "admin")

def helloTo (token database : String) : Hello :=
  { version := 3, token, database, daemonId := "pi", devices := [⟨0, "can0"⟩] }

/-- A client with a wrong key, and a daemon that stores a batch and says `HELLO` again. -/
def twoClients : List (IngestEvent Nat) :=
  [.accept, .accept, .arrive 0 (.hello (helloTo "guess" "site")),
    .arrive 1 (.hello (helloTo "admin" "site")), .handle 0 (.hello (helloTo "guess" "site")) {},
    .handle 1 (.hello (helloTo "admin" "site")) {}, .resume 1 {}, .arrive 1 (.batch 1 [10, 20]),
    .handle 1 (.batch 1 [10, 20]) {}, .resume 1 {}, .arrive 1 (.hello (helloTo "admin" "lab")),
    .handle 1 (.hello (helloTo "admin" "lab")) {}, .resume 1 {}]

def afterTwoClients : IngestServer Nat :=
  (runs (step plainConfig plainMachine) (init adminOnly []) twoClients).getD (init adminOnly [])

theorem afterTwoClients_reached :
    runs (step plainConfig plainMachine) (init adminOnly []) twoClients = some afterTwoClients := by
  decide +kernel

/-- The daemon's batch went to the database its first `HELLO` named. -/
theorem run_authorised_twoClients :
    ∃ o, afterTwoClients.opened[0]? = some o ∧ o.conn = 1 ∧ o.database = "site" := by
  obtain ⟨o, ho, hconn, hdatabase, -⟩ :=
    run_authorised adminOnly [] twoClients afterTwoClients afterTwoClients_reached
      ⟨1, 0, "site", [10, 20], true⟩ (by decide +kernel)
  exact ⟨o, ho, hconn, hdatabase⟩

end WireTap.Gateway.IngestServer
