import Mathlib
import WireTap.Lib.Triple
import WireTap.Forward.Equiv.Catalogues
import WireTap.Forward.Equiv.Sink
import WireTap.Gateway.Hello

/-!
# A meta database failure at `HELLO`

The gateway answers a failure of its meta database with no assignments, and a daemon takes no
assignments to mean that its lines have none: `connect_metaFails` says what it then frames with and
what `assignments.json` holds, and `hello_failure_keeps_iff` when that is what they were.
-/

namespace WireTap

open Std.Do

set_option mvcgen.warning false

variable {α : Type}

/-- `s'` is `s` after operations that leave the catalogues to themselves. -/
structure Framed (s s' : ForwardSink α) : Prop where
  catalogues : s'.catalogues = s.catalogues
  turns : s'.turns = s.turns
  database : s'.database = s.database
  hello : hello s' = hello s
  version : s'.version = s.version

namespace Framed

theorem refl (s : ForwardSink α) : Framed s s := ⟨rfl, rfl, rfl, rfl, rfl⟩

theorem trans {s₁ s₂ s₃ : ForwardSink α} (h : Framed s₁ s₂) (h' : Framed s₂ s₃) : Framed s₁ s₃ where
  catalogues := h'.catalogues.trans h.catalogues
  turns := h'.turns.trans h.turns
  database := h'.database.trans h.database
  hello := h'.hello.trans h.hello
  version := h'.version.trans h.version

end Framed

theorem note_framed (e : Event α) (s : ForwardSink α) :
    ⦃fun t => ⌜t = s⌝⦄ note e ⦃⇓ _ s' => ⌜Framed s s'⌝⦄ := by
  mvcgen [note]
  rename_i ht _
  subst ht
  exact ⟨rfl, rfl, rfl, rfl, rfl⟩

theorem send_framed (l : Link) (m : Message α) (s : ForwardSink α) :
    ⦃fun t => ⌜t = s⌝⦄ l.send m
    ⦃⇓ r s' => ⌜Framed s s' ∧ r = (withTimeout "write" (l.writes.headD .ok),
      { l with writes := l.writes.tail })⌝⦄ := by
  mvcgen [Link.send, note_framed]
  · rename_i ht _ s' h
    subst ht
    exact ⟨h, rfl⟩
  · rename_i ht
    subst ht
    exact ⟨Framed.refl _, rfl⟩

/-- The next connection, where there is one. -/
theorem dial_framed (s : ForwardSink α) (l : Link) (hl : s.dials.head? = some (.link l)) :
    ⦃fun t => ⌜t = s⌝⦄ dial ⦃⇓ r s' => ⌜Framed s s' ∧ r = .ok l⌝⦄ := by
  have hhead : s.dials.headD .timedOut = .link l := by
    rw [List.headD_eq_head?_getD, hl, Option.getD_some]
  mvcgen [dial, note_framed]
  · rename_i ht why hd
    rw [ht, hhead] at hd
    cases hd
  · rename_i ht hd
    rw [ht, hhead] at hd
    cases hd
  · rename_i ht l' hd _ s' h
    subst ht
    rw [hhead] at hd
    cases hd
    exact ⟨⟨h.catalogues, h.turns, h.database, h.hello, h.version⟩, rfl⟩

/-- A reply that is there and is no `CATALOGUE` or `CLOSE`. -/
theorem recv_framed (s : ForwardSink α) (l : Link) (ack : HelloAck)
    (hl : l.arrivals.head? = some (.reply (.helloAck ack))) :
    ⦃fun t => ⌜t = s⌝⦄ l.recv ⦃⇓ r s' => ⌜Framed s s' ∧ r.1 = .ok (.helloAck ack)⌝⦄ := by
  obtain ⟨writes, arrivals⟩ := l
  cases arrivals with
  | nil => cases hl
  | cons arrival rest =>
    obtain rfl := Option.some.inj hl
    -- Nothing is left to decide: one arrival is read and returned.
    intro t ht
    subst ht
    exact ⟨⟨rfl, rfl, rfl, rfl, rfl⟩, rfl⟩

section Handshake

variable [Protocol α]

/-- A v3 session whose `HELLO` the gateway answers with `ack`, with no other session about. -/
structure Session (s : ForwardSink α) (ack : HelloAck) : Prop where
  version : s.version = 3
  alone : s.turns = []
  encodes : Protocol.encodeHello α (hello s) = .ok ()
  link : ∃ l, s.dials.head? = some (.link l) ∧ l.writes.headD .ok = .ok ∧
    l.arrivals.head? = some (.reply (.helloAck ack))

theorem handshake_framed (s : ForwardSink α) (ack : HelloAck) (h : Session s ack) :
    ⦃fun t => ⌜t = s⌝⦄ handshake ⦃⇓ r s' => ⌜Framed s s' ∧ ∃ l, r = .ok (l, ack)⌝⦄ := by
  obtain ⟨l, hdial, hwrite, harrive⟩ := h.link
  have hdials := dial_framed s l hdial
  mvcgen [handshake, hdials, send_framed]
  · rename_i h₁
    cases h₁.2
  · rename_i h₁ hsent why hwhy
    change Protocol.encodeHello α (hello _) = _ at hwhy
    rw [h₁.1.hello, h.encodes] at hwhy
    cases hwhy
  · rename_i l₁ _ s₁ h₁ _ _ r e hr s₂ h₂
    obtain rfl : l₁ = l := Except.ok.inj h₁.2
    rw [h₂.2, hwrite] at hr
    cases hr
  · rename_i l₁ _ s₁ h₁ _ _ r hr s₂ h₂
    obtain rfl : l₁ = l := Except.ok.inj h₁.2
    -- The HELLO is out, and what arrives next is the answer.
    have hrecv := recv_framed s₂ r.2 ack (by rw [h₂.2]; exact harrive)
    mvcgen [hrecv]
    · rename_i hr' s₃ h₃
      rw [h₃.2] at hr'
      cases hr'
    · rename_i r' ack' hr' s₃ h₃
      rw [h₃.2] at hr'
      cases hr'
      exact ⟨(h₁.trans h₂.1).trans h₃.1, r'.2, rfl⟩
    · rename_i hr' s₃ h₃
      rw [h₃.2] at hr'
      cases hr'
    · rename_i hne _ hr' s₃ h₃
      rw [h₃.2] at hr'
      cases hr'
      exact absurd rfl (hne ack)

theorem agree_framed (s : ForwardSink α) (ack : HelloAck) (h : Session s ack)
    (hok : ack.status = .ok) :
    ⦃fun t => ⌜t = s⌝⦄ agree ⦃⇓ r s' => ⌜Framed s s' ∧ ∃ l, r = .ok (l, ack)⌝⦄ := by
  have hshake := handshake_framed s ack h
  mvcgen [agree, hshake]
  rename_i l₁ ack₁ _ s₁ h₁ hfall _
  obtain ⟨-, l, hl⟩ := h₁
  cases hl
  simp [mayFallBack, hok] at hfall

end Handshake

section Catalogues

variable [CatalogueFormat]

theorem otherSessions_framed (s : ForwardSink α) (hs : s.turns = []) :
    ⦃fun t => ⌜t = s⌝⦄ otherSessions ⦃⇓ _ s' => ⌜Framed s s'⌝⦄ := by
  mvcgen [otherSessions]
  rename_i ht _
  subst ht
  refine ⟨?_, ?_, rfl, rfl, rfl⟩
  · change List.foldl Catalogues.elsewhere _ (List.headD _ []) = _
    rw [hs]
    rfl
  · change List.tail _ = _
    rw [hs]
    rfl

/-- With nothing assigned, every line is cleared and nothing is fetched. -/
theorem pullLines_nothing (interfaces : List String) (l : Link) (s : ForwardSink α) :
    ⦃fun t => ⌜t = s⌝⦄ pullLines [] interfaces l
    ⦃⇓ r s' => ⌜s' = s ∧ r = (interfaces.map fun i => (i, .cleared), l)⌝⦄ := by
  induction interfaces with
  | nil => mvcgen [pullLines]
  | cons i rest ih =>
    mvcgen [pullLines, pullLine, ih]
    · rename_i ht _ _ r s' h
      exact ⟨h.1, by rw [h.2]; rfl⟩
    · rename_i device a ha
      -- No assignment is found in an empty list.
      simp at ha

theorem pull_nothing (l : Link) (s : ForwardSink α) (hs : s.turns = []) :
    ⦃fun t => ⌜t = s⌝⦄ pull l []
    ⦃⇓ _ s' => ⌜s'.catalogues = s.catalogues.apply
        ((s.catalogues.ownedBy s.database).map fun i => (i, .cleared)) ∧ s'.turns = []⌝⦄ := by
  mvcgen [pull, pullLines_nothing, otherSessions_framed]
  · rename_i ht r s₁ h₁
    rw [h₁.1, ht]
    exact hs
  · rename_i ht r s₁ h₁ _ s₂ h₂ _
    subst ht
    obtain ⟨rfl, rfl⟩ := h₁
    refine ⟨?_, h₂.turns.trans hs⟩
    change s₂.catalogues.apply _ = _
    rw [h₂.catalogues]

variable [Protocol α]

theorem statusMessage_framed (s : ForwardSink α) (hs : s.turns = []) :
    ⦃fun t => ⌜t = s⌝⦄ statusMessage ⦃⇓ _ s' => ⌜Framed s s'⌝⦄ := by
  mvcgen [statusMessage, otherSessions_framed]
  · rename_i ht
    rw [ht]
    exact hs
  · rename_i ht _ s₁ h₁ _
    rw [ht] at h₁
    exact h₁.turns.trans hs
  · rename_i ht _ s₁ h₁ _ _ s₂ h₂ _ _
    subst ht
    exact h₁.trans ⟨h₂.catalogues, h₂.turns, h₂.database, h₂.hello, h₂.version⟩
  · rename_i ht _ s₁ h₁ _ _ s₂ h₂ _ _ _
    subst ht
    exact h₁.trans ⟨h₂.catalogues, h₂.turns, h₂.database, h₂.hello, h₂.version⟩

/-- The gateway assigned nothing. -/
theorem introduce_nothing (s : ForwardSink α) (l : Link) (status : HelloStatus) (version : Nat)
    (hs : s.turns = []) (hv : s.version = 3) :
    ⦃fun t => ⌜t = s⌝⦄ introduce l ⟨status, version, []⟩
    ⦃⇓ _ s' => ⌜s'.catalogues = s.catalogues.apply
        ((s.catalogues.ownedBy s.database).map fun i => (i, .cleared))⌝⦄ := by
  mvcgen [introduce, pull_nothing, statusMessage_framed, send_framed]
  · rename_i ht hne
    exact absurd (ht ▸ hv) hne
  · rename_i ht _
    rw [ht]
    exact hs
  · rename_i h
    exact h.2
  · rename_i ht _ l₁ s₁ h₁ _ _ s₂ h₂
    subst ht
    rw [h₂.catalogues, h₁.1]
  · rename_i ht _ l₁ s₁ h₁ _ st _ s₂ h₂ r s₃
    intro h₃ _
    subst ht
    rw [h₃.catalogues, h₂.catalogues, h₁.1]

/-- What the lines frame with after a session that was assigned nothing. -/
theorem connect_nothing (s : ForwardSink α) (h : Session s ⟨.ok, 3, []⟩) :
    ⦃fun t => ⌜t = s⌝⦄ connect
    ⦃⇓ _ s' => ⌜s'.catalogues = s.catalogues.apply
        ((s.catalogues.ownedBy s.database).map fun i => (i, .cleared))⌝⦄ := by
  have hagree := agree_framed s _ h rfl
  mvcgen [connect, hagree, setConn]
  · rename_i h₁
    obtain ⟨-, l, hl⟩ := h₁
    cases hl
  · rename_i l₁ ack₁ _ hne s₁ h₁
    obtain ⟨-, l, hl⟩ := h₁
    cases hl
    exact absurd rfl hne
  · rename_i l₁ ack₁ _ hne s₁ h₁
    obtain ⟨hf, l, hl⟩ := h₁
    cases hl
    have hintro := introduce_nothing s₁ l₁ .ok 3 (hf.turns.trans h.alone) (hf.version.trans h.version)
    rw [hf.catalogues, hf.database] at hintro
    mvcgen [hintro, setConn]

/-- What the lines frame with, and what `assignments.json` holds, are what they were. -/
def Kept (before after : Catalogues) : Prop :=
  (∀ i, after.effective i = before.effective i) ∧
    after.disk.assignments = before.disk.assignments

/-- After a meta database failure at `HELLO`, a daemon frames as before exactly if every line its
session owns frames with its `/etc` fallback already, and keeps `assignments.json` exactly if none
of those lines is in its assignments, or the file could not be written or would not change. -/
theorem hello_failure_keeps_iff (s : ForwardSink α) (recorded : Except String Unit)
    (read : Except String (List Assignment)) (hfails : MetaFails recorded read)
    (hs : Session s (helloAck recorded read)) :
    Kept s.catalogues (connect.run s).2.catalogues ↔
      (∀ l ∈ s.catalogues.lines, l.database = s.database → l.rules = fallback l.etc) ∧
      ((∀ i ∈ s.catalogues.ownedBy s.database, s.catalogues.assigned.lookup i = none) ∨
        s.catalogues.dir = none ∨ (s.catalogues.disk.failures.headD none).isSome ∨
        s.catalogues.disk.assignments =
          some (toVecPretty (s.catalogues.assigned.without (s.catalogues.ownedBy s.database)))) := by
  rw [helloAck, daemonHello_of_metaFails hfails] at hs
  obtain ⟨r, s', hrun⟩ : ∃ r s', connect.run s = (r, s') := ⟨_, _, rfl⟩
  have hcatalogues := run_of_triple (connect_nothing s hs) rfl hrun
  rw [hrun]
  obtain ⟨heffective, hfile⟩ := Catalogues.apply_cleared s.catalogues s.database
  rw [← hcatalogues] at heffective hfile
  refine and_congr ?_ ?_
  · -- The rules: a line of the session's database now has its fallback, any other is untouched.
    constructor
    · intro hsame l hl hdb
      have hk := hsame l.interface
      rw [heffective, Catalogues.effective, Catalogues.line_of_mem hl] at hk
      simp only [Option.map_some, if_pos hdb, Option.some.injEq] at hk
      exact hk.symm
    · intro hetc i
      rw [heffective, Catalogues.effective]
      apply Option.map_congr
      intro l hl
      by_cases hdb : l.database = s.database
      · rw [if_pos hdb, hetc l (List.mem_of_find?_eq_some hl) hdb]
      · rw [if_neg hdb]
  · -- The file: it is written exactly if an assignment went.
    rw [hfile, ← Assignments.without_eq_self_iff]
    split
    · rename_i hkept
      simp only [true_iff]
      rcases hkept with h | h | h
      · exact .inl h
      · exact .inr (.inl h)
      · exact .inr (.inr (.inl h))
    · rename_i hwritten
      obtain ⟨h₁, h₂⟩ := not_or.mp hwritten
      obtain ⟨h₂, h₃⟩ := not_or.mp h₂
      constructor
      · intro h
        exact .inr (.inr (.inr h.symm))
      · rintro (h | h | h | h)
        · exact absurd h h₁
        · exact absurd h h₂
        · exact absurd h h₃
        · exact h.symm

end Catalogues

section Lost

attribute [local instance] pairs noFormat

/-- A catalogue with this SHA-1. -/
def lineSha : Sha := ⟨List.replicate 20 1, List.length_replicate⟩

/-- One line of the database `site`. -/
def siteLine (etc : Option LineCatalogue) (rules : Rules) : Line where
  interface := "/dev/ttyUSB0"
  database := "site"
  etc
  rules

/-- A daemon with that line and these assignments, about to connect to a gateway that answers its
`HELLO` with no assignments. -/
def siteSink (etc : Option LineCatalogue) (rules : Rules) (assigned : Assignments) :
    ForwardSink Nat where
  apiKey := "key"
  database := "site"
  daemonId := "pi"
  devices := [⟨0, "/dev/ttyUSB0"⟩]
  rawSerial := false
  catalogues :=
    { dir := some "/var/lib/wiretap", lines := [siteLine etc rules], distinct := by simp,
      assigned, refused := ∅, changes := 0,
      disk := { assignments := some (toVecPretty assigned) } }
  seen := 0
  deadLetter := "dead.db"
  dials := [.link { arrivals := [.reply (.helloAck ⟨.ok, 3, []⟩)] }]

theorem siteSink_session (etc : Option LineCatalogue) (rules : Rules) (assigned : Assignments) :
    Session (siteSink etc rules assigned) (helloAck (.error "connection refused") (.ok [])) where
  version := rfl
  alone := rfl
  encodes := rfl
  link := ⟨_, rfl, rfl, rfl⟩

/-- A line that frames with its `/etc` catalogue, and nothing assigned. -/
theorem hello_failure_keeps_etc :
    let s := siteSink (some ⟨"/etc/line.toml", lineSha⟩) (.etc ⟨"/etc/line.toml", lineSha⟩) ∅
    Kept s.catalogues (connect.run s).2.catalogues := by
  refine (hello_failure_keeps_iff _ (.error "connection refused") (.ok []) (.inl ⟨_, rfl⟩)
    (siteSink_session _ _ _)).mpr ⟨?_, .inl ?_⟩
  · intro l hl _
    rw [List.mem_singleton.mp hl]
    rfl
  · intro i _
    exact Finmap.lookup_empty i

/-- A line that frames with the gateway's catalogue: the meta database could not be reached, and the
line frames with nothing and its assignment is forgotten. -/
theorem hello_failure_clears :
    let s := siteSink none (.gateway (blobSha1Hex lineSha) ⟨"/var/lib/wiretap/a.toml", lineSha⟩)
      (Finmap.singleton "/dev/ttyUSB0" (blobSha1Hex lineSha))
    MetaFails (.error "connection refused") (.ok []) ∧
      Session s (helloAck (.error "connection refused") (.ok [])) ∧
      (connect.run s).2.catalogues.effective "/dev/ttyUSB0" = some .none ∧
      (connect.run s).2.catalogues.disk.assignments = some "\x7b\x7d" ∧
      ¬ Kept s.catalogues (connect.run s).2.catalogues := by
  refine ⟨.inl ⟨_, rfl⟩, siteSink_session _ _ _, by decide +kernel, by decide +kernel, ?_⟩
  rintro ⟨hrules, -⟩
  have hline := hrules "/dev/ttyUSB0"
  revert hline
  decide +kernel

end Lost

end WireTap
