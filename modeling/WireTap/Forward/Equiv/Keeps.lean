import Mathlib
import WireTap.Lib.Triple
import WireTap.Forward.Sink

/-!
# What a session keeps while it is set up

The invariant rule for `connect` and for `send_status_if_changed`.  A predicate on the sink `Survives`
if it survives each thing these can do: dial, read a reply, send the sink's `HELLO` or a message that
is neither a `BATCH` nor a `PING`, fall back to v2, keep a connection whose `HELLO` is out, step the
shared catalogues and mark their changes as seen.  Then they keep it, whatever the gateway and the
other sessions do (`connect_survives`, `sendStatusIfChanged_survives`).  One that looks neither at the
connection nor at the version has less to show (`Keeps`).
-/

namespace WireTap

open Std.Do

set_option mvcgen.warning false

variable {α : Type}

/-- A `BATCH` or a `PING`. -/
def Message.isTraffic : Message α → Bool
  | .batch _ _ | .ping => true
  | .hello _ | .catalogueGet _ _ | .catalogueStatus _ => false

/-- The sink with one more event in its log. -/
def ForwardSink.logging (s : ForwardSink α) (e : Event α) : ForwardSink α :=
  { s with log := s.log ++ [e] }

/-- `R` survives every step of setting a session up. -/
structure Keeps [CatalogueFormat] (R : ForwardSink α → Prop) : Prop where
  dialled {t : ForwardSink α} : R t → R (t.logging .dialled)
  received {t : ForwardSink α} (r : Reply) : R t → R (t.logging (.received r))
  sent {t : ForwardSink α} {m : Message α} : m.isTraffic = false → R t → R (t.logging (.sent m))
  elsewhere {t : ForwardSink α} (e : Elsewhere) :
    R t → R { t with catalogues := t.catalogues.elsewhere e }
  seen {t : ForwardSink α} : R t → R { t with seen := t.catalogues.changes }
  same {t u : ForwardSink α} : R t → u.log = t.log → u.dead = t.dead → u.devices = t.devices →
    u.seen = t.seen → u.catalogues = t.catalogues → R u

/-- A `HELLO` has gone out on this link. -/
def ForwardSink.SaidHello (s : ForwardSink α) : Prop := ∃ h, Event.sent (.hello h) ∈ s.log

def Message.isHello : Message α → Bool
  | .hello _ => true
  | .batch _ _ | .ping | .catalogueGet _ _ | .catalogueStatus _ => false

/-- `R` survives every step of a session but a `BATCH` and a `PING`, where it may also speak of what
the session is: a `HELLO` is the sink's own, v2 is fallen back to only where no raw serial comes, and
a connection is kept only once its `HELLO` is out. -/
structure Survives [CatalogueFormat] (R : ForwardSink α → Prop) : Prop where
  dialled {t : ForwardSink α} : R t → R (t.logging .dialled)
  received {t : ForwardSink α} (r : Reply) : R t → R (t.logging (.received r))
  said {t : ForwardSink α} : R t → R (t.logging (.sent (.hello (hello t))))
  asked {t : ForwardSink α} {m : Message α} : m.isTraffic = false → m.isHello = false → R t →
    R (t.logging (.sent m))
  elsewhere {t : ForwardSink α} (e : Elsewhere) :
    R t → R { t with catalogues := t.catalogues.elsewhere e }
  seen {t : ForwardSink α} : R t → R { t with seen := t.catalogues.changes }
  fallBack {t : ForwardSink α} : t.rawSerial = false → R t → R { t with version := 2 }
  linked {t : ForwardSink α} (l : Link) : t.conn.isSome = true ∨ t.SaidHello → R t →
    R { t with conn := some l }
  same {t u : ForwardSink α} : R t → u.log = t.log → u.dead = t.dead → u.devices = t.devices →
    u.seen = t.seen → u.catalogues = t.catalogues → u.database = t.database →
    u.rawSerial = t.rawSerial → u.version = t.version → u.conn = t.conn → R u

theorem Keeps.survives [CatalogueFormat] {R : ForwardSink α → Prop} (h : Keeps R) : Survives R where
  dialled := h.dialled
  received := h.received
  said := h.sent rfl
  asked hm _ := h.sent hm
  elsewhere := h.elsewhere
  seen := h.seen
  fallBack _ ht := h.same ht rfl rfl rfl rfl rfl
  linked _ _ ht := h.same ht rfl rfl rfl rfl rfl
  same ht hlog hdead hdevices hseen hcatalogues _ _ _ _ :=
    h.same ht hlog hdead hdevices hseen hcatalogues

/-- What is in the log stays in it. -/
theorem Survives.said_too [CatalogueFormat] {R : ForwardSink α → Prop} (h : Survives R) :
    Survives fun t => R t ∧ t.SaidHello where
  dialled ht := ⟨h.dialled ht.1, ht.2.imp fun _ => List.mem_append_left _⟩
  received r ht := ⟨h.received r ht.1, ht.2.imp fun _ => List.mem_append_left _⟩
  said ht := ⟨h.said ht.1, ht.2.imp fun _ => List.mem_append_left _⟩
  asked hm hm' ht := ⟨h.asked hm hm' ht.1, ht.2.imp fun _ => List.mem_append_left _⟩
  elsewhere e ht := ⟨h.elsewhere e ht.1, ht.2⟩
  seen ht := ⟨h.seen ht.1, ht.2⟩
  fallBack hraw ht := ⟨h.fallBack hraw ht.1, ht.2⟩
  linked l hl ht := ⟨h.linked l hl ht.1, ht.2⟩
  same ht hlog hdead hdevices hseen hcatalogues hdatabase hraw hversion hconn := by
    refine ⟨h.same ht.1 hlog hdead hdevices hseen hcatalogues hdatabase hraw hversion hconn, ?_⟩
    rw [ForwardSink.SaidHello, hlog]
    exact ht.2

/-- A session that raw serial comes to never falls back. -/
theorem rawSerial_of_mayFallBack {s : ForwardSink α} {ack : HelloAck}
    (h : mayFallBack s ack = true) : s.rawSerial = false := by
  unfold mayFallBack at h
  rw [Bool.and_eq_true, Bool.not_eq_true'] at h
  exact h.2

section Survives

variable {R : ForwardSink α → Prop}

/-- A message that goes out is in the log; one that does not changes nothing. -/
theorem send_ends (l : Link) (m : Message α) (t : ForwardSink α) :
    ⦃fun u => ⌜u = t⌝⦄ l.send m
    ⦃⇓ r s' => ⌜(r.1 = .ok () → s' = t.logging (.sent m)) ∧ (r.1 ≠ .ok () → s' = t)⌝⦄ := by
  mvcgen [Link.send, note]
  · rename_i hr _ ht _
    subst ht
    exact ⟨fun _ => rfl, fun hne => absurd hr hne⟩
  · rename_i hr heq _ ht
    subst ht
    exact ⟨fun hok => absurd (heq.symm.trans hok) hr, fun _ => rfl⟩

theorem send_keeps (l : Link) (m : Message α)
    (hm : ∀ {t : ForwardSink α}, R t → R (t.logging (.sent m))) :
    ⦃fun t => ⌜R t⌝⦄ l.send m ⦃⇓ _ s' => ⌜R s'⌝⦄ := by
  mvcgen [Link.send, note]
  rename_i ht _
  exact hm ht

theorem recvAny_survives (hr : ∀ {t : ForwardSink α} r, R t → R (t.logging (.received r)))
    (l : Link) : ⦃fun t => ⌜R t⌝⦄ l.recvAny ⦃⇓ _ s' => ⌜R s'⌝⦄ := by
  mvcgen [Link.recvAny, note]
  · rename_i ht _ _ _
    exact hr _ ht
  · rename_i ht _ _ _
    exact hr _ ht
  · rename_i ht _ _ _ _ _
    exact hr _ ht

theorem recvLoop_survives (hr : ∀ {t : ForwardSink α} r, R t → R (t.logging (.received r)))
    (fuel : Nat) (l : Link) : ⦃fun t => ⌜R t⌝⦄ Link.recvLoop fuel l ⦃⇓ _ s' => ⌜R s'⌝⦄ := by
  have hany := recvAny_survives (R := R) hr
  induction fuel generalizing l with
  | zero => mvcgen [Link.recvLoop, hany]
  | succ fuel ih => mvcgen [Link.recvLoop, hany, ih]

theorem recv_survives (hr : ∀ {t : ForwardSink α} r, R t → R (t.logging (.received r)))
    (l : Link) : ⦃fun t => ⌜R t⌝⦄ l.recv ⦃⇓ _ s' => ⌜R s'⌝⦄ :=
  recvLoop_survives hr l.arrivals.length l

variable [CatalogueFormat]

/-- Steps of the other sessions, in order. -/
theorem Survives.elsewheres (h : Survives R) {t : ForwardSink α} (steps : List Elsewhere)
    (ht : R t) : R { t with catalogues := steps.foldl Catalogues.elsewhere t.catalogues } := by
  induction steps generalizing t with
  | nil => exact ht
  | cons e rest ih => exact ih (h.elsewhere e ht)

theorem recvCatalogLoop_survives (h : Survives R) (sha : Sha) (offset fuel : Nat) (l : Link) :
    ⦃fun t => ⌜R t⌝⦄ Link.recvCatalogLoop sha offset fuel l ⦃⇓ _ s' => ⌜R s'⌝⦄ := by
  have hany := recvAny_survives (R := R) h.received
  induction fuel generalizing l with
  | zero => mvcgen [Link.recvCatalogLoop]
  | succ fuel ih => mvcgen [Link.recvCatalogLoop, hany, ih]

theorem fetchLoop_survives (h : Survives R) (sha : Sha) (fuel offset : Nat) (blob : List UInt8)
    (l : Link) :
    ⦃fun t => ⌜R t⌝⦄ Link.fetchLoop sha fuel offset blob l ⦃⇓ _ s' => ⌜R s'⌝⦄ := by
  have hsend := fun l offset => send_keeps (R := R) l (.catalogueGet sha offset) (h.asked rfl rfl)
  have hrecv := recvCatalogLoop_survives h
  induction fuel generalizing offset blob l with
  | zero => mvcgen [Link.fetchLoop]
  | succ fuel ih => mvcgen [Link.fetchLoop, hsend, Link.recvCatalog, hrecv, ih]

/-- On a connection there is, what a message leaves. -/
theorem sendOn_survives (h : Survives R) (m : Message α)
    (hm : ∀ {t : ForwardSink α}, t.conn.isSome = true → R t → R (t.logging (.sent m))) :
    ⦃fun t => ⌜R t⌝⦄ sendOn m ⦃⇓ _ s' => ⌜R s'⌝⦄ := by
  have hsend := fun l => send_keeps (R := fun t => t.conn.isSome = true ∧ R t) l m
    fun ht => ⟨ht.1, hm ht.1 ht.2⟩
  mvcgen [sendOn, hsend, setConn]
  · rename_i ht _ hconn
    rw [hconn]
    exact ⟨rfl, ht⟩
  · rename_i ht _
    exact h.linked _ (.inl ht.1) ht.2

theorem recvOn_survives (h : Survives R) : ⦃fun t => ⌜R t⌝⦄ recvOn ⦃⇓ _ s' => ⌜R s'⌝⦄ := by
  have hrecv := recv_survives (R := fun t => t.conn.isSome = true ∧ R t)
    fun r ht => ⟨ht.1, h.received r ht.2⟩
  mvcgen [recvOn, hrecv, setConn]
  · rename_i ht _ hconn
    rw [hconn]
    exact ⟨rfl, ht⟩
  · rename_i ht _
    exact h.linked _ (.inl ht.1) ht.2

theorem dial_survives (h : Survives R) : ⦃fun t => ⌜R t⌝⦄ dial ⦃⇓ _ s' => ⌜R s'⌝⦄ := by
  mvcgen [dial, note]
  · rename_i ht _ _
    exact h.same ht rfl rfl rfl rfl rfl rfl rfl rfl rfl
  · rename_i ht _
    exact h.same ht rfl rfl rfl rfl rfl rfl rfl rfl rfl
  · rename_i ht _ _ _
    exact h.dialled (h.same ht rfl rfl rfl rfl rfl rfl rfl rfl rfl)

/-- The other sessions' next turn. -/
theorem otherSessions_survives (h : Survives R) :
    ⦃fun t => ⌜R t⌝⦄ otherSessions ⦃⇓ _ s' => ⌜R s'⌝⦄ := by
  mvcgen [otherSessions]
  rename_i t ht _
  exact h.same (h.elsewheres (t.turns.headD []) ht) rfl rfl rfl rfl rfl rfl rfl rfl rfl

/-! ### The catalogues -/

theorem catalogue_survives (h : Survives R) (l : Link) (sha : Sha) :
    ⦃fun t => ⌜R t⌝⦄ catalogue l sha ⦃⇓ _ s' => ⌜R s'⌝⦄ := by
  have hothers := otherSessions_survives h
  have hfetch := fetchLoop_survives h
  mvcgen [catalogue, hothers, Link.fetch, hfetch]
  rename_i ht
  exact h.elsewhere (.store _ _) ht

theorem pullLines_survives (h : Survives R) (assignments : List Assignment)
    (interfaces : List String) (l : Link) :
    ⦃fun t => ⌜R t⌝⦄ pullLines assignments interfaces l ⦃⇓ _ s' => ⌜R s'⌝⦄ := by
  have hcatalogue := catalogue_survives h
  induction interfaces generalizing l with
  | nil => mvcgen [pullLines]
  | cons interface rest ih => mvcgen [pullLines, pullLine, hcatalogue, ih]

theorem pull_survives (h : Survives R) (l : Link) (assignments : List Assignment) :
    ⦃fun t => ⌜R t⌝⦄ pull l assignments ⦃⇓ _ s' => ⌜R s'⌝⦄ := by
  have hothers := otherSessions_survives h
  have hlines := pullLines_survives h
  mvcgen [pull, hlines, hothers]
  rename_i ht _
  exact h.elsewhere (.apply _) ht

variable [Protocol α]

theorem statusMessage_survives (h : Survives R) :
    ⦃fun t => ⌜R t⌝⦄ statusMessage ⦃⇓ _ s' => ⌜R s'⌝⦄ := by
  have hothers := otherSessions_survives h
  mvcgen [statusMessage, hothers]
  rename_i ht _
  exact h.seen ht

theorem sendStatusIfChanged_survives (h : Survives R) :
    ⦃fun t => ⌜R t⌝⦄ sendStatusIfChanged ⦃⇓ _ s' => ⌜R s'⌝⦄ := by
  have hothers := otherSessions_survives h
  have hstatus := statusMessage_survives h
  have hsend := fun status =>
    sendOn_survives h (.catalogueStatus status) fun _ => h.asked rfl rfl
  mvcgen [sendStatusIfChanged, hothers, hstatus, hsend]

/-! ### `connect` -/

/-- A handshake that was answered has sent the `HELLO`. -/
theorem handshake_survives (h : Survives R) :
    ⦃fun t => ⌜R t⌝⦄ handshake
    ⦃⇓ r s' => ⌜R s' ∧ (r.isOk = true → s'.SaidHello)⌝⦄ := by
  have hdial := dial_survives h
  have hrecv := recv_survives (R := fun t => R t ∧ t.SaidHello) h.said_too.received
  mvcgen [handshake, hdial, send_ends, hrecv]
  · rename_i ht
    exact ⟨ht, Bool.noConfusion⟩
  · rename_i ht _ _ _
    exact ⟨ht, Bool.noConfusion⟩
  · -- The `HELLO` did not go out.
    rename_i ht _ _ r e hr s' hs
    rw [hs.2 (by simp [hr])]
    exact ⟨ht, Bool.noConfusion⟩
  · rename_i ht _ _ r hr s' hs
    rw [hs.1 hr]
    exact ⟨h.said ht, _, List.mem_append_right _ List.mem_cons_self⟩
  · rename_i ht
    exact ⟨ht.1, Bool.noConfusion⟩
  · rename_i ht
    exact ⟨ht.1, fun _ => ht.2⟩
  · rename_i ht
    exact ⟨ht.1, Bool.noConfusion⟩
  · rename_i ht
    exact ⟨ht.1, Bool.noConfusion⟩

/-- The handshake of `connect`, and the fall-back only of a session without raw serial. -/
theorem agree_survives (h : Survives R) :
    ⦃fun t => ⌜R t⌝⦄ agree ⦃⇓ r s' => ⌜R s' ∧ (r.isOk = true → s'.SaidHello)⌝⦄ := by
  have hshake := handshake_survives h
  mvcgen [agree, hshake]
  rename_i ht hmay _
  exact h.fallBack (rawSerial_of_mayFallBack hmay) ht.1

theorem introduce_survives (h : Survives R) (l : Link) (ack : HelloAck) :
    ⦃fun t => ⌜R t⌝⦄ introduce l ack ⦃⇓ _ s' => ⌜R s'⌝⦄ := by
  have hpull := pull_survives h
  have hstatus := statusMessage_survives h
  have hsend := fun l status => send_keeps (R := R) l (.catalogueStatus status) (h.asked rfl rfl)
  mvcgen [introduce, hpull, hstatus, hsend]

theorem connect_survives (h : Survives R) :
    ⦃fun t => ⌜R t⌝⦄ connect ⦃⇓ _ s' => ⌜R s'⌝⦄ := by
  have hagree := agree_survives h
  have hintroduce := introduce_survives h.said_too
  mvcgen [connect, hagree, hintroduce, setConn]
  · rename_i ht
    exact ht.1
  · rename_i ht
    exact ht.1
  · rename_i ht
    exact ⟨ht.1, ht.2 rfl⟩
  · rename_i ht
    exact ht.1
  · rename_i ht _
    exact h.linked _ (.inr ht.2) ht.1

end Survives

/-! ### Predicates that do not look at the session -/

section Keeps

variable {R : ForwardSink α → Prop} [CatalogueFormat]

theorem setConn_keeps (h : Keeps R) (conn : Option Link) :
    ⦃fun t => ⌜R t⌝⦄ setConn conn ⦃⇓ _ s' => ⌜R s'⌝⦄ := by
  mvcgen [setConn]
  rename_i ht _
  exact h.same ht rfl rfl rfl rfl rfl

theorem sendOn_keeps (h : Keeps R) (m : Message α)
    (hm : ∀ {t : ForwardSink α}, R t → R (t.logging (.sent m))) :
    ⦃fun t => ⌜R t⌝⦄ sendOn m ⦃⇓ _ s' => ⌜R s'⌝⦄ :=
  sendOn_survives h.survives m fun _ => hm

theorem recvOn_keeps (h : Keeps R) : ⦃fun t => ⌜R t⌝⦄ recvOn ⦃⇓ _ s' => ⌜R s'⌝⦄ :=
  recvOn_survives h.survives

theorem otherSessions_keeps (h : Keeps R) :
    ⦃fun t => ⌜R t⌝⦄ otherSessions ⦃⇓ _ s' => ⌜R s'⌝⦄ :=
  otherSessions_survives h.survives

theorem pull_keeps (h : Keeps R) (l : Link) (assignments : List Assignment) :
    ⦃fun t => ⌜R t⌝⦄ pull l assignments ⦃⇓ _ s' => ⌜R s'⌝⦄ :=
  pull_survives h.survives l assignments

variable [Protocol α]

theorem sendStatusIfChanged_keeps (h : Keeps R) :
    ⦃fun t => ⌜R t⌝⦄ sendStatusIfChanged ⦃⇓ _ s' => ⌜R s'⌝⦄ :=
  sendStatusIfChanged_survives h.survives

theorem agree_keeps (h : Keeps R) : ⦃fun t => ⌜R t⌝⦄ agree ⦃⇓ _ s' => ⌜R s'⌝⦄ := by
  have hagree := agree_survives h.survives
  mvcgen [hagree]
  exact fun ht _ => ht

theorem connect_keeps (h : Keeps R) : ⦃fun t => ⌜R t⌝⦄ connect ⦃⇓ _ s' => ⌜R s'⌝⦄ :=
  connect_survives h.survives

end Keeps

end WireTap
