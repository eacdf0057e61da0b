import WireTap.Lib.Excerpts
import WireTap.Forward.Equiv.Keeps
import WireTap.Forward.Equiv.Restart

/-!
# What a session makes of the catalogues it is assigned

The chunks a fetch took are a chain of excerpts of the blob (`fetchLoop_chain`).

`pull_settles` is about whatever is stored at the far end: if each blob that was fetched is what is
stored under that name, and it is stored under its own (`Supplied`), then each line the session owns
stands after the pull as `Settled` says.  The other sessions may do what they will to the shared
catalogues meanwhile.
-/

namespace WireTap

open Std.Do

set_option mvcgen.warning false

variable {α : Type}

/-! ### What a fetch takes -/

/-- The chunk as an excerpt of its blob. -/
def CatalogueChunk.excerpt (chunk : CatalogueChunk) : Excerpt UInt8 :=
  ⟨chunk.offset, chunk.data, chunk.next⟩

namespace Link

theorem send_run {l l' : Link} {m : Message α} {s s' : ForwardSink α} {r : SinkResult}
    (h : (l.send m).run s = ((r, l'), s')) : s.log <+: s'.log := by
  simp only [send] at h
  split at h
  · cases h
    exact List.prefix_append _ _
  · cases h
    exact List.prefix_refl _

theorem recvAny_run {l l' : Link} {s s' : ForwardSink α} {r : Except SinkError Reply}
    (h : l.recvAny.run s = ((r, l'), s')) :
    s.log <+: s'.log ∧ ∀ x, r = .ok x → Event.received x ∈ s'.log := by
  simp only [recvAny] at h
  split at h
  case h_6 x _ =>
    simp only [note, StateT.run_bind] at h
    split at h <;> cases h
    · exact ⟨List.prefix_append _ _, by simp⟩
    · exact ⟨List.prefix_append _ _, by simp⟩
    · refine ⟨List.prefix_append _ _, ?_⟩
      intro y hy
      obtain rfl := Except.ok.inj hy
      exact List.mem_append_right _ (List.mem_singleton_self _)
  all_goals
    cases h
    exact ⟨List.prefix_refl _, by simp⟩

theorem recvCatalogLoop_run {sha : Sha} {offset fuel : Nat} {l l' : Link} {s s' : ForwardSink α}
    {chunk : CatalogueChunk}
    (h : (recvCatalogLoop sha offset fuel l).run s = ((.ok chunk, l'), s')) :
    s.log <+: s'.log ∧ chunk.blobSha = sha ∧ chunk.offset = offset ∧
      Event.received (.catalogue chunk) ∈ s'.log := by
  induction fuel generalizing l s with
  | zero =>
    cases h
  | succ fuel ih =>
    rcases hany : l.recvAny.run s with ⟨⟨r, l₁⟩, s₁⟩
    obtain ⟨hgrew, hreceived⟩ := recvAny_run hany
    rw [recvCatalogLoop, run_bind_of_run hany] at h
    cases r with
    | error e => cases h
    | ok x =>
      cases x with
      | catalogue chunk₁ =>
        dsimp only at h
        split at h
        · rename_i hasked
          cases h
          exact ⟨hgrew, hasked.1, hasked.2, hreceived _ rfl⟩
        · obtain ⟨hgrew₁, htaken⟩ := ih h
          exact ⟨hgrew.trans hgrew₁, htaken⟩
      | _ => cases h

/-- The chunks of a whole fetch: each has been received, is of the blob, and is asked for where the
one before it points. -/
theorem fetchLoop_chain {sha : Sha} {offset fuel : Nat} {blob whole : List UInt8} {l l' : Link}
    {s s' : ForwardSink α}
    (h : (fetchLoop sha fuel offset blob l).run s = ((.ok whole, l'), s')) :
    s.log <+: s'.log ∧ ∃ chunks : List CatalogueChunk,
      Excerpt.Chain offset (chunks.map CatalogueChunk.excerpt) ∧
      whole = blob ++ (chunks.map CatalogueChunk.excerpt).flatMap Excerpt.data ∧
      ∀ chunk ∈ chunks, chunk.blobSha = sha ∧ chunk.status = .ok ∧
        Event.received (.catalogue chunk) ∈ s'.log := by
  induction fuel generalizing offset blob l s with
  | zero => cases h
  | succ fuel ih =>
    rcases hsend : (l.send (.catalogueGet sha offset)).run s with ⟨⟨sent, l₁⟩, s₁⟩
    have hsent := send_run hsend
    rw [fetchLoop, run_bind_of_run hsend] at h
    cases sent with
    | error e => cases h
    | ok _ =>
      rcases hrecv : (l₁.recvCatalog sha offset).run s₁ with ⟨⟨got, l₂⟩, s₂⟩
      dsimp only at h
      rw [run_bind_of_run hrecv] at h
      cases got with
      | error why => cases h
      | ok chunk =>
        obtain ⟨hgrew, hsha, rfl, hreceived⟩ := recvCatalogLoop_run hrecv
        dsimp only at h
        split at h
        case h_4 hstatus =>
          split at h
          · rename_i hnext
            cases h
            refine ⟨hsent.trans hgrew, [chunk], .last chunk.excerpt hnext,
              by simp [CatalogueChunk.excerpt], ?_⟩
            intro chunk' hchunk'
            obtain rfl := List.mem_singleton.mp hchunk'
            exact ⟨hsha, hstatus, hreceived⟩
          · rename_i offset' hnext
            obtain ⟨hgrew', chunks, hchain, rfl, hall⟩ := ih h
            refine ⟨hsent.trans (hgrew.trans hgrew'), chunk :: chunks,
              .more chunk.excerpt hnext hchain, ?_, ?_⟩
            · simp [CatalogueChunk.excerpt]
            · intro chunk' hchunk'
              rcases List.mem_cons.mp hchunk' with rfl | hchunk'
              · exact ⟨hsha, hstatus, hgrew'.subset hreceived⟩
              · exact hall chunk' hchunk'
        all_goals cases h

end Link

/-! ### What updates leave -/

/-- What an update leaves refused on its line. -/
def Update.refuses : Update → Option (Sha × Refusal)
  | .refused sha refusal => some (sha, refusal)
  | .assigned _ _ | .cleared => none

namespace Catalogues

theorem applyOne_refused (c : Catalogues) (interface k : String) (update : Update) :
    (c.applyOne interface update).1.refused.lookup k =
      if k = interface ∧ (c.line k).isSome then update.refuses else c.refused.lookup k := by
  unfold applyOne
  cases hline : c.line interface with
  | none =>
    have hnot : ¬ (k = interface ∧ (c.line k).isSome) := by
      rintro ⟨rfl, hsome⟩
      simp [hline] at hsome
    rw [if_neg hnot]
  | some line =>
    by_cases hk : k = interface
    · subst hk
      rw [if_pos ⟨rfl, by rw [hline]; rfl⟩]
      cases update with
      | assigned sha catalogue => exact Finmap.lookup_erase _ _
      | cleared => exact Finmap.lookup_erase _ _
      | refused sha refusal => exact Finmap.lookup_insert _
    · rw [if_neg fun h => hk h.1]
      cases update with
      | assigned sha catalogue => exact Finmap.lookup_erase_ne hk
      | cleared => exact Finmap.lookup_erase_ne hk
      | refused sha refusal => exact Finmap.lookup_insert_of_ne _ hk

theorem applyAll_of_not_mem (c : Catalogues) {updates : List (String × Update)} {k : String}
    (h : k ∉ updates.map (·.1)) :
    (c.applyAll updates).1.line k = c.line k ∧
      (c.applyAll updates).1.refused.lookup k = c.refused.lookup k := by
  induction updates generalizing c with
  | nil => exact ⟨rfl, rfl⟩
  | cons update rest ih =>
    obtain ⟨interface, update⟩ := update
    rw [List.map_cons, List.mem_cons, not_or] at h
    obtain ⟨hne, hrest⟩ := h
    obtain ⟨hline, hrefused⟩ := ih (c.applyOne interface update).1 hrest
    constructor
    · refine hline.trans ?_
      simp [applyOne_line, hne]
    · refine hrefused.trans ?_
      simp [applyOne_refused, hne]

/-- Of updates to different lines each is there to be seen at the end. -/
theorem applyAll_of_mem (c : Catalogues) {updates : List (String × Update)} {k : String}
    {update : Update} (hdistinct : (updates.map (·.1)).Nodup) (hmem : (k, update) ∈ updates)
    (hline : (c.line k).isSome) :
    (c.applyAll updates).1.line k = (c.line k).map (·.updated update) ∧
      (c.applyAll updates).1.refused.lookup k = update.refuses := by
  induction updates generalizing c with
  | nil => cases hmem
  | cons first rest ih =>
    obtain ⟨interface, first⟩ := first
    rw [List.map_cons, List.nodup_cons] at hdistinct
    rcases List.mem_cons.mp hmem with heq | hlater
    · cases heq
      obtain ⟨hrest, hrefused⟩ := applyAll_of_not_mem (c.applyOne k update).1 hdistinct.1
      constructor
      · refine hrest.trans ?_
        simp [applyOne_line]
      · refine hrefused.trans ?_
        simp [applyOne_refused, hline]
    · have hne : k ≠ interface := by
        rintro rfl
        exact hdistinct.1 (List.mem_map.mpr ⟨(k, update), hlater, rfl⟩)
      have hone : (c.applyOne interface first).1.line k = c.line k := by
        simp [applyOne_line, hne]
      have hrest := ih (c.applyOne interface first).1 hdistinct.2 hlater (by rw [hone]; exact hline)
      rw [hone] at hrest
      exact hrest

theorem apply_refused (c : Catalogues) (updates : List (String × Update)) :
    (c.apply updates).refused = (c.applyAll updates).1.refused := by
  unfold apply
  dsimp only
  split
  · rfl
  · rw [remember_eq]

theorem apply_of_mem (c : Catalogues) {updates : List (String × Update)} {k : String}
    {update : Update} (hdistinct : (updates.map (·.1)).Nodup) (hmem : (k, update) ∈ updates)
    (hline : (c.line k).isSome) :
    (c.apply updates).line k = (c.line k).map (·.updated update) ∧
      (c.apply updates).refused.lookup k = update.refuses := by
  obtain ⟨-, hlines, -⟩ := apply_spec c updates
  obtain ⟨hupdated, hrefused⟩ := applyAll_of_mem c hdistinct hmem hline
  constructor
  · rw [← hupdated, line, line, hlines]
  · rw [apply_refused]
    exact hrefused

theorem applyAll_isSome (c : Catalogues) (updates : List (String × Update)) (k : String) :
    ((c.applyAll updates).1.line k).isSome = (c.line k).isSome := by
  induction updates generalizing c with
  | nil => rfl
  | cons update rest ih => exact (ih _).trans (applyOne_isSome c update.1 k update.2)

/-- No step of another session adds or removes a line. -/
theorem elsewhere_isSome [CatalogueFormat] (c : Catalogues) (e : Elsewhere) (k : String) :
    ((c.elsewhere e).line k).isSome = (c.line k).isSome := by
  cases e with
  | apply updates =>
    obtain ⟨-, hlines, -⟩ := apply_spec c updates
    rw [← applyAll_isSome c updates k, elsewhere, line, hlines]
    rfl
  | store sha blob =>
    obtain ⟨-, hlines, -⟩ := store_same c sha blob
    rw [elsewhere, line, hlines]
    rfl

end Catalogues

/-! ### What a pull leaves -/

section Pull

variable [CatalogueFormat]

/-- The catalogue a `HELLO_ACK` assigns to a line: that of the bus the line was named on. -/
def assignedTo (devices : List Device) (assignments : List Assignment) (interface : String) :
    Option Assignment :=
  (devices.find? fun d => d.name = interface).bind fun d => assignments.find? fun a => a.bus = d.bus

/-- What a session asks of a line it owns: its assignment, unless the blob could not be fetched, or
is stored as something that does not parse. -/
inductive Justified (stored : Sha → List UInt8 → Prop) (devices : List Device)
    (assignments : List Assignment) (interface : String) : Update → Prop where
  | cleared : assignedTo devices assignments interface = none →
    Justified stored devices assignments interface .cleared
  | assigned (a : Assignment) (blob : List UInt8) (path : String) (catalogue : LineCatalogue) :
    assignedTo devices assignments interface = some a →
    Catalogues.checked (blobSha1Hex a.blobSha) blob path = .ok catalogue →
    Justified stored devices assignments interface (.assigned (blobSha1Hex a.blobSha) catalogue)
  | notFetched (a : Assignment) : assignedTo devices assignments interface = some a →
    Justified stored devices assignments interface (.refused a.blobSha .fetchFailed)
  | didNotParse (a : Assignment) (content : List UInt8) (path why : String) :
    assignedTo devices assignments interface = some a →
    stored a.blobSha content →
    Catalogues.checked (blobSha1Hex a.blobSha) content path = .error (.didNotParse, why) →
    Justified stored devices assignments interface (.refused a.blobSha .didNotParse)

theorem otherSessions_run {s s' : ForwardSink α} (h : otherSessions.run s = ((), s')) :
    s'.log = s.log := by
  cases h
  rfl

theorem cached_ok {c : Catalogues} {sha : String} {catalogue : LineCatalogue}
    (h : c.cached sha = .ok catalogue) :
    ∃ blob path, Catalogues.checked sha blob path = .ok catalogue := by
  unfold Catalogues.cached at h
  split at h
  · cases h
  · split at h
    · cases h
    · split at h
      · cases h
      · rename_i catalogue' hchecked
        cases h
        exact ⟨_, _, hchecked⟩

theorem store_cases (c : Catalogues) (sha : String) (blob : List UInt8) :
    (∃ why, (c.store sha blob).1 = .error (.fetchFailed, why)) ∨
      ∃ path, (c.store sha blob).1 = Catalogues.checked sha blob path := by
  unfold Catalogues.store
  split
  · exact .inl ⟨_, rfl⟩
  · rename_i path _
    split
    · rename_i refused hchecked
      exact .inr ⟨path, hchecked.symm⟩
    · rename_i catalogue hchecked
      dsimp only
      split
      · exact .inl ⟨_, rfl⟩
      · exact .inr ⟨path, hchecked.symm⟩

/-- A blob under its own name is refused only for what it says. -/
theorem checked_error {sha : Sha} {blob : List UInt8} {path : String} {refused : Refusal × String}
    (hname : CatalogueFormat.blobSha1 blob = sha)
    (h : Catalogues.checked (blobSha1Hex sha) blob path = .error refused) :
    refused.1 = .didNotParse := by
  unfold Catalogues.checked at h
  simp only [hname, ne_eq, not_true_eq_false, if_false] at h
  split at h
  · cases h
    rfl
  · split at h
    · cases h
      rfl
    · cases h

/-- What stays while a session pulls, whatever the others do: its log, its devices and which lines
there are. -/
structure Pulling (s t : ForwardSink α) : Prop where
  log : s.log <+: t.log
  devices : t.devices = s.devices
  lines : ∀ k, (t.catalogues.line k).isSome = (s.catalogues.line k).isSome

theorem keeps_pulling (s : ForwardSink α) : Keeps (Pulling s) where
  dialled ht := ⟨ht.log.trans (List.prefix_append _ _), ht.devices, ht.lines⟩
  received _ ht := ⟨ht.log.trans (List.prefix_append _ _), ht.devices, ht.lines⟩
  sent _ ht := ⟨ht.log.trans (List.prefix_append _ _), ht.devices, ht.lines⟩
  elsewhere e ht :=
    ⟨ht.log, ht.devices, fun k => (Catalogues.elsewhere_isSome _ e k).trans (ht.lines k)⟩
  seen ht := ⟨ht.log, ht.devices, ht.lines⟩
  same ht hlog _ hdevices _ hcatalogues := by
    refine ⟨hlog ▸ ht.log, hdevices.trans ht.devices, ?_⟩
    rw [hcatalogues]
    exact ht.lines

omit [CatalogueFormat] in
theorem pulling_refl (s : ForwardSink α) : Pulling s s := ⟨List.prefix_refl _, rfl, fun _ => rfl⟩

/-- What was fetched, as far as this log goes, is what is stored, and that under its own name. -/
structure Supplied (log : List (Event α)) (stored : Sha → List UInt8 → Prop) : Prop where
  fetched {sha : Sha} {blob : List UInt8} {l l' : Link} {s s' : ForwardSink α} :
    (l.fetch sha).run s = ((.ok blob, l'), s') → s'.log <+: log → stored sha blob
  named {sha : Sha} {content : List UInt8} : stored sha content →
    CatalogueFormat.blobSha1 content = sha

variable {log : List (Event α)} {stored : Sha → List UInt8 → Prop}

/-- What a session comes to frame with was a blob of that name, and what it turns down is stored
so. -/
theorem catalogue_run (h : Supplied log stored) {sha : Sha} {l l' : Link} {s s' : ForwardSink α}
    {r : Except (Refusal × String) LineCatalogue}
    (htake : (catalogue l sha).run s = ((r, l'), s')) (hlog : s'.log <+: log) :
    (∃ blob path catalogue, r = .ok catalogue ∧
        Catalogues.checked (blobSha1Hex sha) blob path = .ok catalogue) ∨
      (∃ why, r = .error (.fetchFailed, why)) ∨
      ∃ content path why, r = .error (.didNotParse, why) ∧ stored sha content ∧
        Catalogues.checked (blobSha1Hex sha) content path = .error (.didNotParse, why) := by
  rcases hothers : (otherSessions (α := α)).run s with ⟨⟨⟩, s₁⟩
  have hget : (get : Fwd α (ForwardSink α)).run s₁ = (s₁, s₁) := rfl
  rw [catalogue, run_bind_of_run hothers, run_bind_of_run hget] at htake
  split at htake
  · rename_i cached hcached
    cases htake
    obtain ⟨blob, path, hchecked⟩ := cached_ok hcached
    exact .inl ⟨blob, path, cached, rfl, hchecked⟩
  · rcases hfetch : (l.fetch sha).run s₁ with ⟨⟨fetched, l₁⟩, s₂⟩
    rw [run_bind_of_run hfetch] at htake
    cases fetched with
    | error why =>
      cases htake
      exact .inr (.inl ⟨why, rfl⟩)
    | ok blob =>
      rcases hothers₂ : (otherSessions (α := α)).run s₂ with ⟨⟨⟩, s₃⟩
      have hget₃ : (get : Fwd α (ForwardSink α)).run s₃ = (s₃, s₃) := rfl
      dsimp only at htake
      rw [run_bind_of_run hothers₂, run_bind_of_run hget₃] at htake
      obtain ⟨rfl, hend⟩ :
          (s₃.catalogues.store (blobSha1Hex sha) blob).1 = r ∧ s₃.log = s'.log := by
        cases htake
        exact ⟨rfl, rfl⟩
      have hcontent : stored sha blob := by
        refine h.fetched hfetch ?_
        rw [← otherSessions_run hothers₂, hend]
        exact hlog
      rcases store_cases s₃.catalogues (blobSha1Hex sha) blob with hfailed | ⟨path, hchecked⟩
      · exact .inr (.inl hfailed)
      · rw [hchecked]
        cases hresult : Catalogues.checked (blobSha1Hex sha) blob path with
        | ok catalogue => exact .inl ⟨blob, path, catalogue, rfl, hresult⟩
        | error refused =>
          obtain ⟨refusal, why⟩ := refused
          obtain rfl : refusal = .didNotParse := checked_error (h.named hcontent) hresult
          exact .inr (.inr ⟨blob, path, why, rfl, hcontent, hresult⟩)

theorem pullLine_run (h : Supplied log stored) {assignments : List Assignment} {interface : String}
    {l l' : Link} {s s' : ForwardSink α} {update : Update}
    (hpull : (pullLine assignments l interface).run s = ((update, l'), s'))
    (hlog : s'.log <+: log) :
    Justified stored s.devices assignments interface update := by
  have hget : (get : Fwd α (ForwardSink α)).run s = (s, s) := rfl
  rw [pullLine, run_bind_of_run hget] at hpull
  dsimp only at hpull
  split at hpull
  · rename_i hnone
    cases hpull
    exact .cleared hnone
  · rename_i a hassigned
    rcases htake : (catalogue l a.blobSha).run s with ⟨⟨taken, l₁⟩, s₁⟩
    rw [run_bind_of_run htake] at hpull
    have hend : s₁ = s' := by
      cases taken <;> cases hpull <;> rfl
    subst hend
    rcases catalogue_run h htake hlog with ⟨blob, path, catalogue, rfl, hchecked⟩ |
      ⟨why, rfl⟩ | ⟨content, path, why, rfl, hcontent, hchecked⟩
    · cases hpull
      exact .assigned a blob path catalogue hassigned hchecked
    · cases hpull
      exact .notFetched a hassigned
    · cases hpull
      exact .didNotParse a content path why hassigned hcontent hchecked

theorem pullLine_survives {R : ForwardSink α → Prop} (h : Survives R)
    (assignments : List Assignment) (interface : String) (l : Link) :
    ⦃fun t => ⌜R t⌝⦄ pullLine assignments l interface ⦃⇓ _ s' => ⌜R s'⌝⦄ := by
  have hcatalogue := catalogue_survives h
  mvcgen [pullLine, hcatalogue]

theorem pullLines_run (h : Supplied log stored) {assignments : List Assignment}
    {interfaces : List String} {l l' : Link} {s s' : ForwardSink α}
    {updates : List (String × Update)}
    (hpull : (pullLines assignments interfaces l).run s = ((updates, l'), s'))
    (hlog : s'.log <+: log) :
    updates.map (·.1) = interfaces ∧
      ∀ u ∈ updates, Justified stored s.devices assignments u.1 u.2 := by
  induction interfaces generalizing l s updates with
  | nil =>
    cases hpull
    exact ⟨rfl, by simp⟩
  | cons interface rest ih =>
    rcases hline : (pullLine assignments l interface).run s with ⟨⟨update, l₁⟩, s₁⟩
    rcases hrest : (pullLines assignments rest l₁).run s₁ with ⟨⟨updates', l₂⟩, s₂⟩
    rw [pullLines, run_bind_of_run hline] at hpull
    dsimp only at hpull
    rw [run_bind_of_run hrest] at hpull
    cases hpull
    have hkept : Pulling s s₁ := by
      have hkeeps := kept_of_triple
        (pullLine_survives (keeps_pulling s).survives assignments interface l) (pulling_refl s)
      rw [hline] at hkeeps
      exact hkeeps
    have hlater : Pulling s₁ s' := by
      have hkeeps := kept_of_triple
        (pullLines_survives (keeps_pulling s₁).survives assignments rest l₁) (pulling_refl s₁)
      rw [hrest] at hkeeps
      exact hkeeps
    obtain ⟨hmap, hall⟩ := ih hrest
    refine ⟨by rw [List.map_cons, hmap], ?_⟩
    intro u hu
    rcases List.mem_cons.mp hu with rfl | hu
    · exact pullLine_run h hline (hlater.log.trans hlog)
    · rw [← hkept.devices]
      exact hall u hu

/-- How a line stands after its session's pull: it frames with the catalogue it is assigned, read
from a blob of that name, or with what is its own where it is assigned none; or it is to say that it
could not get the blob, or that what is stored does not parse.  No blob is ever found not to be the
one named. -/
inductive Settled (stored : Sha → List UInt8 → Prop) (devices : List Device)
    (assignments : List Assignment) (c : Catalogues) (interface : String) : Prop where
  | cleared (line : Line) : assignedTo devices assignments interface = none →
    c.line interface = some line → line.rules = fallback line.etc →
    c.refused.lookup interface = none → Settled stored devices assignments c interface
  | assigned (a : Assignment) (blob : List UInt8) (path : String) (catalogue : LineCatalogue) :
    assignedTo devices assignments interface = some a →
    Catalogues.checked (blobSha1Hex a.blobSha) blob path = .ok catalogue →
    c.effective interface = some (.gateway (blobSha1Hex a.blobSha) catalogue) →
    c.refused.lookup interface = none → Settled stored devices assignments c interface
  | notFetched (a : Assignment) : assignedTo devices assignments interface = some a →
    c.refused.lookup interface = some (a.blobSha, .fetchFailed) →
    Settled stored devices assignments c interface
  | didNotParse (a : Assignment) (content : List UInt8) (path why : String) :
    assignedTo devices assignments interface = some a →
    stored a.blobSha content →
    Catalogues.checked (blobSha1Hex a.blobSha) content path = .error (.didNotParse, why) →
    c.refused.lookup interface = some (a.blobSha, .didNotParse) →
    Settled stored devices assignments c interface

theorem Justified.settled {stored : Sha → List UInt8 → Prop} {devices : List Device}
    {assignments : List Assignment} {interface : String} {update : Update} {c c' : Catalogues}
    (h : Justified stored devices assignments interface update) (hline : (c.line interface).isSome)
    (hupdated : c'.line interface = (c.line interface).map (·.updated update))
    (hrefused : c'.refused.lookup interface = update.refuses) :
    Settled stored devices assignments c' interface := by
  obtain ⟨line, hline⟩ := Option.isSome_iff_exists.mp hline
  rw [hline, Option.map_some] at hupdated
  cases h with
  | cleared hnone => exact .cleared _ hnone hupdated rfl hrefused
  | assigned a blob path catalogue hassigned hchecked =>
    refine .assigned a blob path catalogue hassigned hchecked ?_ hrefused
    rw [Catalogues.effective, hupdated]
    rfl
  | notFetched a hassigned => exact .notFetched a hassigned hrefused
  | didNotParse a content path why hassigned hcontent hchecked =>
    exact .didNotParse a content path why hassigned hcontent hchecked hrefused

/-- Each line the session owns stands as it should after the pull. -/
theorem pull_settles (h : Supplied log stored) {assignments : List Assignment} {l l' : Link}
    {s s' : ForwardSink α} (hpull : (pull l assignments).run s = (l', s')) (hlog : s'.log <+: log) :
    ∀ interface ∈ s.catalogues.ownedBy s.database,
      Settled stored s.devices assignments s'.catalogues interface := by
  have hget : (get : Fwd α (ForwardSink α)).run s = (s, s) := rfl
  rcases hlines : (pullLines assignments (s.catalogues.ownedBy s.database) l).run s with
    ⟨⟨updates, l₁⟩, s₁⟩
  rcases hothers : (otherSessions (α := α)).run s₁ with ⟨⟨⟩, s₂⟩
  rw [pull, run_bind_of_run hget, run_bind_of_run hlines, run_bind_of_run hothers] at hpull
  cases hpull
  have hkept : Pulling s s₂ := by
    have hkeeps := kept_of_triple (pullLines_survives (keeps_pulling s).survives assignments
      (s.catalogues.ownedBy s.database) l) (pulling_refl s)
    rw [hlines] at hkeeps
    have hthen := kept_of_triple (otherSessions_survives (keeps_pulling s).survives) hkeeps
    rw [hothers] at hthen
    exact hthen
  obtain ⟨hmap, hall⟩ := pullLines_run h hlines ((otherSessions_run hothers).symm ▸ hlog)
  have hdistinct : (updates.map (·.1)).Nodup := by
    rw [hmap]
    exact s.catalogues.distinct.sublist (List.filter_sublist.map _)
  intro interface howned
  have hline : (s₂.catalogues.line interface).isSome := by
    obtain ⟨line, hline, -⟩ := Catalogues.line_of_ownedBy howned
    rw [hkept.lines, hline]
    rfl
  rw [← hmap] at howned
  obtain ⟨⟨_, update⟩, hmem, rfl⟩ := List.mem_map.mp howned
  obtain ⟨hupdated, hrefused⟩ := Catalogues.apply_of_mem s₂.catalogues hdistinct hmem hline
  exact (hall _ hmem).settled hline hupdated hrefused

end Pull

end WireTap
