import WireTap.Forward.Equiv.Pull
import WireTap.Delivery.Equiv.Conversation

/-!
# What a daemon fetches is what the gateway stores

A catalogue goes to a daemon in chunks, each asked for by itself, while the gateway stores others,
serves its other clients and answers what the daemon no longer waits for.

Every `CATALOGUE` on its way or received says of its blob what the table has (`Honest`, an invariant
of the conversation): a blob that is stored stays as it is.  So the chunks a fetch took are excerpts
of one blob, and together they are all of it.
-/

namespace WireTap

variable {α : Type}

namespace Gateway.IngestServer

variable {cfg : Config} {machine : SessionMachine α} {s s' : IngestServer α} {i : Nat} {c : Conn α}
  {blobs : List (Sha × List UInt8)}

/-- What a fetch relies on: an answer is about what was asked, says why where there is no blob, and
else is an excerpt of it. -/
structure SessionMachine.Serves (machine : SessionMachine α) : Prop where
  blobSha (sha : Sha) (offset : Nat) (found : Except ChunkStatus (List UInt8)) :
    (machine.answerCatalogue sha offset found).blobSha = sha
  offset (sha : Sha) (offset : Nat) (found : Except ChunkStatus (List UInt8)) :
    (machine.answerCatalogue sha offset found).offset = offset
  refused (sha : Sha) (offset : Nat) (status : ChunkStatus) :
    (machine.answerCatalogue sha offset (.error status)).status = status
  served (sha : Sha) (offset : Nat) (content : List UInt8) : offset ≤ content.length →
    (machine.answerCatalogue sha offset (.ok content)).excerpt.Of content

/-! ### Answers are true -/

/-- What is found of a blob is what the table has. -/
def Found (blobs : List (Sha × List UInt8)) (sha : Sha) : Except ChunkStatus (List UInt8) → Prop
  | .ok content => blobs.lookup sha = some content
  | .error status => status ≠ .ok

/-- A `CATALOGUE` answers with what is found. -/
def Honest (machine : SessionMachine α) (blobs : List (Sha × List UInt8)) (r : Reply) : Prop :=
  ∀ chunk, r = .catalogue chunk → ∃ sha offset found, Found blobs sha found ∧
    chunk = machine.answerCatalogue sha offset found

/-- The answer a task is about to write. -/
def Serving.answer? : Serving → Option Reply
  | .replacing _ answer | .counting _ answer => some answer
  | .waiting | .checked _ _ _ | .ended | .gone => none

structure Conn.Honest (machine : SessionMachine α) (blobs : List (Sha × List UInt8)) (c : Conn α) :
    Prop where
  outbox : ∀ r ∈ c.outbox, IngestServer.Honest machine blobs r
  task : ∀ r ∈ c.task.answer?, IngestServer.Honest machine blobs r
  served : ∀ b ∈ c.served, blobs.lookup b.1 = some b.2

/-- Blobs are added, and stay. -/
def Grows (blobs blobs' : List (Sha × List UInt8)) : Prop :=
  ∀ sha content, blobs.lookup sha = some content → blobs'.lookup sha = some content

theorem Grows.snoc (sha : Sha) (content : List UInt8) :
    Grows blobs (blobs ++ [(sha, content)]) := by
  intro sha' content' hlookup
  rw [List.lookup_append, hlookup, Option.some_or]

theorem Honest.mono {blobs' : List (Sha × List UInt8)} {r : Reply} (h : Honest machine blobs r)
    (hgrows : Grows blobs blobs') : Honest machine blobs' r := by
  intro chunk hr
  obtain ⟨sha, offset, found, hfound, rfl⟩ := h chunk hr
  refine ⟨sha, offset, found, ?_, rfl⟩
  cases found with
  | ok content => exact hgrows sha content hfound
  | error status => exact hfound

theorem Conn.Honest.mono {blobs' : List (Sha × List UInt8)} (h : c.Honest machine blobs)
    (hgrows : Grows blobs blobs') : c.Honest machine blobs' where
  outbox r hr := (h.outbox r hr).mono hgrows
  task r hr := (h.task r hr).mono hgrows
  served b hb := hgrows b.1 b.2 (h.served b hb)

/-- A connection that differs in what no answer depends on. -/
theorem Conn.Honest.congr {c' : Conn α} (h : c.Honest machine blobs)
    (houtbox : c'.outbox = c.outbox) (htask : c'.task = c.task) (hserved : c'.served = c.served) :
    c'.Honest machine blobs where
  outbox := houtbox ▸ h.outbox
  task := htask ▸ h.task
  served := hserved ▸ h.served

/-- An answer that is no `CATALOGUE`. -/
theorem honest_of_ne {r : Reply} (h : ∀ chunk, r ≠ .catalogue chunk) : Honest machine blobs r :=
  fun chunk hr => absurd hr (h chunk)

theorem Conn.Honest.answering (h : c.Honest machine blobs) {r : Reply}
    (hr : IngestServer.Honest machine blobs r) : (c.answering r).Honest machine blobs where
  outbox r' hr' := by
    rcases List.mem_append.mp hr' with hr' | hr'
    · exact h.outbox r' hr'
    · rw [List.mem_singleton.mp hr']
      exact hr
  task := by simp [Conn.answering, Serving.answer?]
  served := h.served

/-- What is found of a blob, and what is then remembered of it. -/
theorem blob_found {served : Option (Sha × List UInt8)} (sha : Sha) (fails : Bool)
    (h : ∀ b ∈ served, blobs.lookup b.1 = some b.2) :
    Found blobs sha (blob blobs served sha fails).1 ∧
      ∀ b ∈ (blob blobs served sha fails).2, blobs.lookup b.1 = some b.2 := by
  unfold blob
  split
  · rename_i sha' content hserved
    obtain ⟨hmem, hsha⟩ := Option.mem_filter_iff.mp hserved
    obtain rfl : sha' = sha := by simpa using hsha
    exact ⟨h _ hmem, h⟩
  · split
    · exact ⟨by simp [Found], h⟩
    · split
      · exact ⟨by simp [Found], h⟩
      · rename_i content hlookup
        refine ⟨hlookup, ?_⟩
        intro b hb
        obtain rfl := Option.mem_some_iff.mp hb
        exact hlookup

/-- Every connection is honest. -/
def AllHonest (machine : SessionMachine α) (s : IngestServer α) : Prop :=
  ∀ c ∈ s.conns, c.Honest machine s.blobs

theorem AllHonest.setConn (h : s.AllHonest machine) (hc : c.Honest machine s.blobs) :
    (s.setConn i c).AllHonest machine := by
  intro c' hc'
  rcases List.mem_or_eq_of_mem_set hc' with hc' | rfl
  · exact h c' hc'
  · exact hc

theorem AllHonest.perform (hlawful : machine.Lawful) (h : s.AllHonest machine)
    (hc : c.Honest machine s.blobs) {accepted : Bool} {m : Message α} {action : Action α}
    {met : Met}
    (hoffer : machine.offers accepted m action = true)
    (hs : s.perform cfg machine i c met action = some s') :
    s'.AllHonest machine ∧ s'.blobs = s.blobs := by
  cases action with
  | reply r =>
    cases hs
    obtain ⟨-, rfl⟩ := hlawful.reply hoffer
    exact ⟨h.setConn (hc.answering (honest_of_ne (by simp))), rfl⟩
  | hello h₀ =>
    simp only [IngestServer.perform] at hs
    split at hs
    · cases hs
      exact ⟨h.setConn (hc.answering (honest_of_ne (by simp [helloAnswer]))), rfl⟩
    · cases hs
      exact ⟨h.setConn ⟨hc.outbox, by simp [Serving.answer?], hc.served⟩, rfl⟩
  | helloRefused status =>
    cases hs
    exact ⟨h.setConn (hc.answering (honest_of_ne (by simp [helloAnswer]))), rfl⟩
  | batch seq samples =>
    simp only [IngestServer.perform] at hs
    split at hs
    · cases hs
    · split at hs
      · cases hs
        refine ⟨AllHonest.setConn h ⟨hc.outbox, ?_, hc.served⟩, rfl⟩
        intro r hr
        obtain rfl := Option.mem_some_iff.mp hr
        exact honest_of_ne (by simp)
      · cases hs
        exact ⟨h.setConn (hc.answering (honest_of_ne (by simp))), rfl⟩
      · cases hs
        exact ⟨h.setConn (hc.answering (honest_of_ne (by simp))), rfl⟩
      · cases hs
        exact ⟨AllHonest.setConn h (hc.answering (honest_of_ne (by simp))), rfl⟩
  | nack seq status =>
    cases hs
    exact ⟨h.setConn (hc.answering (honest_of_ne (by simp))), rfl⟩
  | catalogueGet sha offset =>
    obtain ⟨hfound, hserved⟩ := blob_found sha met.blobFails hc.served
    cases hs
    have hc' : Conn.Honest machine s.blobs
        { c with served := (blob s.blobs c.served sha met.blobFails).2 } :=
      ⟨hc.outbox, hc.task, hserved⟩
    refine ⟨h.setConn (hc'.answering ?_), rfl⟩
    intro chunk hchunk
    obtain rfl := Reply.catalogue.inj hchunk
    exact ⟨sha, offset, _, hfound, rfl⟩
  | catalogueStatus status =>
    cases hs
    exact ⟨h.setConn hc, rfl⟩

theorem AllHonest.resume (h : s.AllHonest machine) (hc : c.Honest machine s.blobs) {met : Met}
    (hs : s.resume cfg machine i c met c.task = some s') :
    s'.AllHonest machine ∧ s'.blobs = s.blobs := by
  have htask := hc.task
  cases hc' : c.task with
  | waiting =>
    rw [hc'] at hs
    cases hs
  | checked h₀ info keys =>
    rw [hc'] at hs
    simp only [IngestServer.resume, greet, Option.some.injEq] at hs
    subst hs
    split
    · exact ⟨h.setConn (hc.answering (honest_of_ne (by simp [helloAnswer]))), rfl⟩
    · refine ⟨AllHonest.setConn h ?_, rfl⟩
      have hanswer : ∀ assignments,
          Honest machine s.blobs (helloAnswer machine .ok assignments) :=
        fun assignments => honest_of_ne (by simp [helloAnswer])
      split
      · refine ⟨hc.outbox, ?_, hc.served⟩
        intro r hr
        obtain rfl := Option.mem_some_iff.mp hr
        exact hanswer _
      · refine Conn.Honest.answering (hc.congr ?_ ?_ ?_) (hanswer _) <;> rfl
  | replacing previous answer =>
    rw [hc'] at hs htask
    cases hs
    exact ⟨AllHonest.setConn h (hc.answering (htask answer rfl)), rfl⟩
  | counting rows answer =>
    rw [hc'] at hs htask
    simp only [IngestServer.resume] at hs
    split at hs
    · cases hs
    · cases hs
      exact ⟨AllHonest.setConn h (hc.answering (htask answer rfl)), rfl⟩
  | ended =>
    have hgone : Conn.Honest machine s.blobs { c with task := .gone } :=
      ⟨hc.outbox, by simp [Serving.answer?], hc.served⟩
    rw [hc'] at hs
    simp only [IngestServer.resume] at hs
    split at hs
    · cases hs
      exact ⟨h.setConn hgone, rfl⟩
    · cases hs
      exact ⟨AllHonest.setConn h hgone, rfl⟩
  | gone =>
    rw [hc'] at hs
    cases hs

theorem AllHonest.step (hlawful : machine.Lawful) (h : s.AllHonest machine) {e : IngestEvent α}
    (hs : s.step cfg machine e = some s') :
    s'.AllHonest machine ∧ Grows s.blobs s'.blobs := by
  have hsame : ∀ {s₁ : IngestServer α}, s₁.AllHonest machine ∧ s₁.blobs = s.blobs →
      s₁.AllHonest machine ∧ Grows s.blobs s₁.blobs := by
    rintro s₁ ⟨hall, hblobs⟩
    refine ⟨hall, ?_⟩
    rw [hblobs]
    exact fun _ _ hlookup => hlookup
  cases e with
  | accept =>
    cases hs
    refine hsame ⟨?_, rfl⟩
    intro c hc
    rcases List.mem_append.mp hc with hc | hc
    · exact h c hc
    · rw [List.mem_singleton.mp hc]
      exact ⟨by simp, by simp [Serving.answer?], by simp⟩
  | arrive i m =>
    obtain ⟨c, hi, rfl⟩ := Option.map_eq_some_iff.mp hs
    have hc := h c (List.mem_of_getElem? hi)
    exact hsame ⟨h.setConn ⟨hc.outbox, hc.task, hc.served⟩, rfl⟩
  | take i =>
    simp only [IngestServer.step] at hs
    split at hs
    · rename_i c hi
      split at hs
      · cases hs
      · cases hs
        have hc := h c (List.mem_of_getElem? hi)
        exact hsame ⟨h.setConn ⟨fun r hr => hc.outbox r (List.mem_of_mem_tail hr), hc.task,
          hc.served⟩, rfl⟩
    · cases hs
  | handle i action met =>
    simp only [IngestServer.step] at hs
    split at hs
    · rename_i c hi
      split at hs
      · obtain ⟨hoffer, hperform⟩ := of_guard hs
        have hc := h c (List.mem_of_getElem? hi)
        refine hsame (AllHonest.perform hlawful h ?_ hoffer hperform)
        exact hc.congr rfl rfl rfl
      · cases hs
    · cases hs
  | resume i met =>
    simp only [IngestServer.step] at hs
    split at hs
    · rename_i c hi
      exact hsame (h.resume (h c (List.mem_of_getElem? hi)) hs)
    · cases hs
  | wake i =>
    simp only [IngestServer.step] at hs
    split at hs
    · rename_i c hi
      obtain ⟨-, hs⟩ := of_guard hs
      cases hs
      have hc := h c (List.mem_of_getElem? hi)
      refine hsame ⟨h.setConn ⟨?_, by simp [Serving.answer?], hc.served⟩, rfl⟩
      intro r hr
      rcases List.mem_append.mp hr with hr | hr
      · exact hc.outbox r hr
      · rw [List.mem_singleton.mp hr]
        exact honest_of_ne (by simp)
    · cases hs
  | hangUp i =>
    simp only [IngestServer.step] at hs
    split at hs
    · rename_i c hi
      obtain ⟨-, hs⟩ := of_guard hs
      cases hs
      have hc := h c (List.mem_of_getElem? hi)
      exact hsame ⟨h.setConn ⟨hc.outbox, by simp [Serving.answer?], hc.served⟩, rfl⟩
    · cases hs
  | reassign daemonId interface =>
    cases hs
    refine hsame ⟨?_, rfl⟩
    intro c hc
    obtain ⟨j, hj, rfl⟩ := List.mem_mapIdx.mp hc
    have hj := h _ (List.getElem_mem hj)
    split
    · exact ⟨hj.outbox, hj.task, hj.served⟩
    · exact hj
  | keys e =>
    obtain ⟨keys, -, rfl⟩ := Option.map_eq_some_iff.mp hs
    exact hsame ⟨h, rfl⟩
  | store sha content =>
    cases hs
    split
    · exact hsame ⟨h, rfl⟩
    · have hgrows : Grows s.blobs (s.blobs ++ [(sha, content)]) := Grows.snoc sha content
      exact ⟨fun c hc => (h c hc).mono hgrows, hgrows⟩

end Gateway.IngestServer

namespace Delivery

open Gateway (IngestServer KeyStore)

variable {cfg : IngestServer.Config} {machine : IngestServer.SessionMachine α}
  {c c' : Conversation α}

/-! ### What is received is true -/

structure Truthful (machine : IngestServer.SessionMachine α) (c : Conversation α) : Prop where
  server : c.server.AllHonest machine
  received : ∀ r, Event.received r ∈ c.log → IngestServer.Honest machine c.server.blobs r

theorem Truthful.step (hlawful : machine.Lawful) (h : Truthful machine c) {e : Happening α}
    (hs : c.step cfg machine e = some c') : Truthful machine c' := by
  have hlog : ∀ {e : Event α}, (∀ r, e ≠ .received r) → ∀ r, Event.received r ∈ c.log ++ [e] →
      IngestServer.Honest machine c.server.blobs r := by
    intro e he r hr
    rcases List.mem_append.mp hr with hr | hr
    · exact h.received r hr
    · exact absurd (List.mem_singleton.mp hr).symm (he r)
  have harrives : ∀ {i : Nat} {conn : IngestServer.Conn α} (inbox : List (Message α)),
      c.server.conns[i]? = some conn →
      (c.server.setConn i { conn with inbox }).AllHonest machine := by
    intro i conn inbox hconn
    refine h.server.setConn ?_
    exact (h.server conn (List.mem_of_getElem? hconn)).congr rfl rfl rfl
  cases conversation_step_cases hs with
  | gateway e server _ hserver =>
    obtain ⟨hall, hgrows⟩ := h.server.step hlawful hserver
    exact ⟨hall, fun r hr => (h.received r hr).mono hgrows⟩
  | dialled =>
    have haccept : c.server.step cfg machine .accept =
        some { c.server with conns := c.server.conns ++ [{}] } := rfl
    exact ⟨(h.server.step hlawful haccept).1, hlog (by simp)⟩
  | sent i conn m _ hconn => exact ⟨harrives _ hconn, hlog (by simp)⟩
  | received i conn r outbox _ hconn hout =>
    have hc := h.server conn (List.mem_of_getElem? hconn)
    refine ⟨h.server.setConn ⟨?_, hc.task, hc.served⟩, ?_⟩
    · intro r' hr'
      exact hc.outbox r' (hout ▸ List.mem_cons_of_mem r hr')
    · intro r' hr'
      rcases List.mem_append.mp hr' with hr' | hr'
      · exact h.received r' hr'
      · obtain rfl := Event.received.inj (List.mem_singleton.mp hr')
        exact hc.outbox r' (hout ▸ List.mem_cons_self)
  | quarantined samples => exact ⟨h.server, hlog (by simp)⟩
  | lost i conn seq samples _ hconn => exact ⟨harrives _ hconn, h.received⟩

theorem truthful_of_runs (hlawful : machine.Lawful) {keys : KeyStore}
    {blobs : List (Sha × List UInt8)} {hs : List (Happening α)}
    (hrun : runs (Conversation.step cfg machine) (Conversation.init keys blobs) hs = some c) :
    Truthful machine c := by
  refine invariant_of_runs ?_ ?_ hrun
  · intro c e c' h hstep
    exact h.step hlawful hstep
  · exact ⟨by simp [IngestServer.AllHonest, Conversation.init, IngestServer.init],
      by simp [Conversation.init]⟩

/-- What was fetched is what the gateway stores. -/
theorem Truthful.fetched (hserves : machine.Serves) (h : Truthful machine c) {sha : Sha}
    {blob : List UInt8} {l l' : Link} {s s' : ForwardSink α}
    (hfetch : (l.fetch sha).run s = ((.ok blob, l'), s')) (hlog : s'.log <+: c.log) :
    c.server.blobs.lookup sha = some blob := by
  obtain ⟨-, chunks, hchain, rfl, hall⟩ := Link.fetchLoop_chain hfetch
  -- Each chunk answers with what the table has of this blob.
  have hanswers : ∀ chunk ∈ chunks, ∃ offset content, c.server.blobs.lookup sha = some content ∧
      chunk = machine.answerCatalogue sha offset (.ok content) := by
    intro chunk hchunk
    obtain ⟨hsha, hstatus, hreceived⟩ := hall chunk hchunk
    obtain ⟨sha', offset, found, hfound, rfl⟩ :=
      h.received _ (hlog.subset hreceived) chunk rfl
    rw [hserves.blobSha] at hsha
    subst hsha
    cases found with
    | ok content => exact ⟨offset, content, hfound, rfl⟩
    | error status =>
      rw [hserves.refused] at hstatus
      exact absurd hstatus hfound
  obtain ⟨chunk, hchunk⟩ : ∃ chunk, chunk ∈ chunks := by
    refine List.exists_mem_of_ne_nil chunks ?_
    intro hnil
    rw [hnil] at hchain
    exact hchain.ne_nil rfl
  obtain ⟨-, content, hcontent, -⟩ := hanswers chunk hchunk
  have hwhole : (chunks.map CatalogueChunk.excerpt).flatMap Excerpt.data = content.drop 0 := by
    refine hchain.flatMap_data (Nat.zero_le _) ?_
    intro x hx hoffset
    obtain ⟨chunk', hchunk', rfl⟩ := List.mem_map.mp hx
    obtain ⟨offset, content', hcontent', rfl⟩ := hanswers chunk' hchunk'
    obtain rfl := Option.some.inj (hcontent.symm.trans hcontent')
    refine hserves.served sha offset content ?_
    rw [← hserves.offset sha offset (.ok content)]
    exact hoffset
  rw [List.nil_append, hwhole]
  exact hcontent

/-! ### Runs -/

/-- Whatever the gateway, its other clients and the network do: a blob that a daemon fetched whole,
as its log shows it, is the one the gateway stores under that name, however its chunks were cut and
whatever answers to earlier fetches came between them. -/
theorem run_fetches (hlawful : machine.Lawful) (hserves : machine.Serves) (keys : KeyStore)
    (blobs : List (Sha × List UInt8)) (hs : List (Happening α)) (c : Conversation α)
    (hconversation :
      runs (Conversation.step cfg machine) (Conversation.init keys blobs) hs = some c)
    (sha : Sha) (blob : List UInt8) (l l' : Link) (s s' : ForwardSink α)
    (hfetch : (l.fetch sha).run s = ((.ok blob, l'), s')) (hlog : s'.log <+: c.log) :
    c.server.blobs.lookup sha = some blob :=
  (truthful_of_runs hlawful hconversation).fetched hserves hfetch hlog

theorem mem_of_lookup {blobs : List (Sha × List UInt8)} {sha : Sha} {content : List UInt8}
    (h : blobs.lookup sha = some content) : (sha, content) ∈ blobs := by
  obtain ⟨before, after, rfl, -⟩ := List.lookup_eq_some_iff.mp h
  simp

/-- What the gateway stores under this name. -/
def Conversation.Stores (c : Conversation α) (sha : Sha) (content : List UInt8) : Prop :=
  c.server.blobs.lookup sha = some content

/-- And where each blob the gateway stores has its own name, each line a session owns stands after
its pull as `Settled` says, of what the gateway stores. -/
theorem run_pulls [CatalogueFormat] (hlawful : machine.Lawful) (hserves : machine.Serves)
    (keys : KeyStore) (blobs : List (Sha × List UInt8)) (hs : List (Happening α))
    (c : Conversation α)
    (hconversation :
      runs (Conversation.step cfg machine) (Conversation.init keys blobs) hs = some c)
    (hnamed : ∀ b ∈ c.server.blobs, CatalogueFormat.blobSha1 b.2 = b.1)
    (assignments : List Assignment) (l l' : Link) (s s' : ForwardSink α)
    (hpull : (pull l assignments).run s = (l', s')) (hlog : s'.log <+: c.log) :
    ∀ interface ∈ s.catalogues.ownedBy s.database,
      Settled c.Stores s.devices assignments s'.catalogues interface := by
  have htruthful := truthful_of_runs hlawful hconversation
  have hsupplied : Supplied c.log c.Stores := by
    refine ⟨?_, ?_⟩
    · intro sha blob l l' s s' hfetch hlog
      exact htruthful.fetched hserves hfetch hlog
    · intro sha content hstored
      exact hnamed _ (mem_of_lookup hstored)
  exact pull_settles hsupplied hpull hlog

/-! ### A run -/

section Chunked

attribute [local instance] pairs

/-- A catalogue in two chunks. -/
def shortBlob : List UInt8 := [0x61, 0x62, 0x63]

def shortSha : Sha := ⟨List.replicate 20 5, List.length_replicate⟩

def otherSha : Sha := ⟨List.replicate 20 2, List.length_replicate⟩

local instance shortFormat : CatalogueFormat where
  blobSha1 content := if content = shortBlob then shortSha else otherSha
  parse path _ := .ok ⟨path, shortSha⟩

/-- A protocol crate with chunks of two bytes. -/
def chunkedMachine : IngestServer.SessionMachine Nat where
  offers := IngestServer.plainMachine.offers
  acceptedVersion := IngestServer.plainMachine.acceptedVersion
  answerCatalogue sha offset found :=
    match found with
    | .error status => ⟨sha, offset, status, [], none⟩
    | .ok content =>
      let data := (content.drop offset).take 2
      let next := offset + data.length
      ⟨sha, offset, .ok, data, if next < content.length then some next else none⟩

theorem chunkedMachine_lawful : chunkedMachine.Lawful := by
  have h := IngestServer.plainMachine_lawful
  exact ⟨h.reply, h.hello, h.helloRefused, h.batch, h.nack, h.catalogueGet, h.catalogueStatus⟩

theorem chunkedMachine_serves : chunkedMachine.Serves where
  blobSha sha offset found := by cases found <;> rfl
  offset sha offset found := by cases found <;> rfl
  refused sha offset status := rfl
  served sha offset content _ := ⟨List.take_prefix _ _, rfl⟩

/-- One framed line, whose session has read its `HELLO_ACK` and gave up on a fetch. -/
def oneLineSink : ForwardSink Nat :=
  { refusedSink with
    apiKey := "admin"
    devices := [⟨0, "ttyS0"⟩]
    catalogues :=
      { dir := some "/var/lib/wiretap", lines := [⟨"ttyS0", "site", none, .none⟩],
        distinct := List.nodup_singleton _, assigned := ∅, refused := ∅, changes := 0
        disk := {} } }

def chunkedHello : Hello := hello oneLineSink

def chunk (offset : Nat) : CatalogueChunk :=
  chunkedMachine.answerCatalogue shortSha offset (.ok shortBlob)

def waitingSink : ForwardSink Nat :=
  { oneLineSink with
    log := [.dialled, .sent (.hello chunkedHello), .received (.helloAck ⟨.ok, 3, [⟨0, shortSha⟩]⟩),
      .sent (.catalogueGet shortSha 0)] }

/-- The first chunk comes twice. -/
def chunkedLink : Link where
  arrivals := [.reply (.catalogue (chunk 0)), .reply (.catalogue (chunk 0)),
    .reply (.catalogue (chunk 2))]

/-- The same at the gateway, which stores another blob meanwhile. -/
def servingChunks : List (Happening Nat) :=
  [.daemon .dialled, .daemon (.sent (.hello chunkedHello)),
    .gateway (.handle 0 (.hello chunkedHello) {}),
    .gateway (.resume 0 { read := .ok [⟨0, shortSha⟩] }),
    .daemon (.received (.helloAck ⟨.ok, 3, [⟨0, shortSha⟩]⟩)),
    .daemon (.sent (.catalogueGet shortSha 0)), .gateway (.handle 0 (.catalogueGet shortSha 0) {}),
    .daemon (.sent (.catalogueGet shortSha 0)), .daemon (.received (.catalogue (chunk 0))),
    .daemon (.sent (.catalogueGet shortSha 2)), .gateway (.handle 0 (.catalogueGet shortSha 0) {}),
    .gateway (.store otherSha [7]), .gateway (.handle 0 (.catalogueGet shortSha 2) {}),
    .daemon (.received (.catalogue (chunk 0))), .daemon (.received (.catalogue (chunk 2)))]

def afterServing : Conversation Nat :=
  (runs (Conversation.step IngestServer.plainConfig chunkedMachine)
    (Conversation.init IngestServer.adminOnly [(shortSha, shortBlob)]) servingChunks).getD
      (Conversation.init IngestServer.adminOnly [])

theorem afterServing_reached :
    runs (Conversation.step IngestServer.plainConfig chunkedMachine)
      (Conversation.init IngestServer.adminOnly [(shortSha, shortBlob)]) servingChunks =
        some afterServing := by
  decide +kernel

/-- The fetch takes the late answer, and goes by the other. -/
theorem run_fetches_chunked : afterServing.server.blobs.lookup shortSha = some shortBlob :=
  run_fetches chunkedMachine_lawful chunkedMachine_serves IngestServer.adminOnly
    [(shortSha, shortBlob)] servingChunks afterServing afterServing_reached shortSha shortBlob
    chunkedLink {} waitingSink ((chunkedLink.fetch shortSha).run waitingSink).2 (by rfl)
    (by decide +kernel)

def pulled : Link × ForwardSink Nat := (pull chunkedLink [⟨0, shortSha⟩]).run waitingSink

/-- The line frames with the catalogue. -/
theorem run_pulls_chunked :
    (pulled.2.catalogues.effective "ttyS0").map Rules.active = some (.assigned shortSha) ∧
      Settled afterServing.Stores [⟨0, "ttyS0"⟩] [⟨0, shortSha⟩] pulled.2.catalogues "ttyS0" := by
  refine ⟨by decide +kernel, ?_⟩
  exact run_pulls chunkedMachine_lawful chunkedMachine_serves IngestServer.adminOnly
    [(shortSha, shortBlob)] servingChunks afterServing afterServing_reached (by decide +kernel)
    [⟨0, shortSha⟩] chunkedLink pulled.1 waitingSink pulled.2 rfl (by decide +kernel) "ttyS0"
    (by decide +kernel)

end Chunked

end Delivery

end WireTap
