import Mathlib.Data.List.Basic
import Mathlib.Tactic.Common
import WireTap.Lib.Halting
import WireTap.Lib.Run
import WireTap.Cache.Adopt
import WireTap.Cache.Equiv.Adopt

/-!
# A cache that stays its file

`InOrder c`: the connection is to the file at the cache's path, the table is in it, and the row count
is its number of rows.  Every operation keeps it, also one that fails, except the two that replace
the connection: `reset` and `take_over` put a placeholder in first, and a step that fails after that
leaves it there (`reset_leaves_placeholder`).  In a run in which no such step fails, every state
reached is in order and every append that returns `Ok` is in the file (`cache_stays_in_order`).
-/

namespace WireTap

variable {α : Type}

namespace SqliteCache

/-- Connected to the file at its path, with the table in it, and the row count that file's. -/
def InOrder (c : SqliteCache α) : Prop := ∃ t, c.table = some t ∧ c.rows = t.rows.length

variable {c : SqliteCache α}

theorem InOrder.append (h : c.InOrder) (xs : List α) : (c.append xs).2.InOrder := by
  obtain ⟨t, ht, hcount⟩ := h
  by_cases hxs : xs = []
  · rw [hxs]
    exact ⟨t, ht, hcount⟩
  · obtain ⟨t', ht', happend⟩ | ⟨e, -, happend⟩ := c.append_cases hxs
    · obtain rfl : t = t' := Option.some.inj (ht.symm.trans ht')
      rw [happend]
      refine ⟨t.insert xs, ?_, ?_⟩
      · rw [SqliteCache.table, conn_of_table ht]
      · change c.rows + xs.length = (t.rows ++ number t.seq xs).length
        rw [List.length_append, number_length, hcount]
    · rw [happend]
      exact ⟨t, ht, hcount⟩

theorem InOrder.oldest (h : c.InOrder) (limit : Nat) : (c.oldest limit).2.InOrder := by
  obtain ⟨t, ht, hcount⟩ := h
  unfold SqliteCache.oldest
  rw [ht]
  dsimp only
  split
  · exact ⟨t, ht, hcount⟩
  · exact ⟨t, ht, hcount⟩

theorem InOrder.remove (h : c.InOrder) (frames : List (Cached α)) :
    (c.remove frames).2.InOrder := by
  obtain ⟨t, ht, hcount⟩ := h
  unfold SqliteCache.remove
  split
  · exact ⟨t, ht, hcount⟩
  · split
    · exact ⟨t, ht, hcount⟩
    · rw [ht]
      dsimp only
      split
      · exact ⟨t, ht, hcount⟩
      · -- The counter goes down by what the table lost.
        refine ⟨t.delete (frames.map Cached.id), ?_, ?_⟩
        · rw [SqliteCache.table, conn_of_table ht]
        · have hle : (t.delete (frames.map Cached.id)).rows.length ≤ t.rows.length :=
            List.length_filter_le _ _
          dsimp only
          omega

/-- The next reset fails, if at all, before the placeholder is in. -/
def ResetsCleanly (c : SqliteCache α) : Prop :=
  c.host.reset.headD none = none ∨ c.host.reset.headD none = some .openInMemory

theorem InOrder.reset (h : c.InOrder) (hclean : c.ResetsCleanly) : c.reset.2.InOrder := by
  unfold SqliteCache.reset
  rcases hclean with hok | hearly
  · rw [hok]
    exact ⟨.empty, rfl, rfl⟩
  · rw [hearly]
    exact h

end SqliteCache

/-! ### Adoption -/

/-- The closes checkpoint, and the cache can be opened again after the rename. -/
structure Answers.Reopens (a : Answers α) : Prop where
  legacyLags : a.legacyLags = none
  ownLags : a.ownLags = none
  reopen : a.reopen ≠ .fails

namespace Site

/-- The cache is in order and what is still to be answered will leave it so. -/
structure Fit (s : Site α) : Prop where
  own : s.own.InOrder
  answers : s.answers.Reopens

/-- A call that halts leaves the cache in order, or no process to use it. -/
def Stopped (e : Halt) (s : Site α) : Prop := e = .crashed ∨ s.own.InOrder

variable {β : Type} {l : Table α}

/-- A step that leaves the cache in order whether or not it takes effect. -/
theorem act_stopped {fate : Fate} {effect : Site α → Except CacheError β × Site α} {s : Site α}
    {Q : β → Site α → Prop} (hbefore : s.own.InOrder) (hafter : (effect s).2.own.InOrder)
    (hok : ∀ b, (effect s).1 = .ok b → Q b (effect s).2) : Ends (act fate effect s) Q Stopped :=
  act_rule (fun _ => .inr hbefore) (fun _ => .inr hafter) hok

theorem openLegacy_fit :
    Ensures (fun s : Site α => s.Fit ∧ s.legacy.file = some l) Storage.openLegacy
      (fun moved s => moved = l.rows.length ∧ s.Fit ∧ s.legacy.file = some l) Stopped := by
  rintro s ⟨hfit, hfile⟩
  refine act_stopped hfit.own hfit.own fun moved hmoved => ?_
  have hopened : (s.legacy.file.getD .empty).rows.length = moved := Except.ok.inj hmoved
  rw [hfile] at hopened
  refine ⟨hopened.symm, ⟨hfit.own, ⟨hfit.answers.legacyLags, hfit.answers.ownLags,
    hfit.answers.reopen⟩⟩, ?_⟩
  change some (s.legacy.file.getD .empty) = some l
  rw [hfile]
  rfl

theorem deleteLegacy_fit : Ensures (Fit (α := α)) deleteLegacy (fun _ => Fit) Stopped := by
  intro s hs
  change Ends (EStateM.bind (act s.answers.unlinkFile _)
    (fun _ => act s.answers.unlinkSidecars _) s) _ _
  refine Ensures.bind (P := fun t => t = s) (Q := fun _ t => t.Fit) ?_ ?_ s rfl
  · rintro t rfl
    exact act_stopped hs.own hs.own fun _ _ => ⟨hs.own, hs.answers⟩
  · intro _ t ht
    exact act_stopped ht.own ht.own fun _ _ => ht

theorem copyAcross_fit (fuel : Nat) :
    Ensures (Fit (α := α)) (copyAcross fuel) (fun _ => Fit) Stopped := by
  have hread (limit : Nat) :
      Ensures (Fit (α := α)) (Storage.oldestLegacy limit) (fun _ => Fit) Stopped :=
    fun s hs => act_stopped hs.own hs.own fun _ _ => ⟨hs.own, hs.answers⟩
  have happend (frames : List α) : Ensures Fit (Storage.append frames) (fun _ => Fit) Stopped :=
    fun s hs => act_stopped hs.own (hs.own.append frames) fun _ _ =>
      ⟨hs.own.append frames, hs.answers⟩
  have hremove (batch : List (Cached α)) :
      Ensures Fit (Storage.removeLegacy batch) (fun _ => Fit) Stopped :=
    fun s hs => act_stopped hs.own hs.own fun _ _ =>
      ⟨hs.own, ⟨hs.answers.legacyLags, hs.answers.ownLags, hs.answers.reopen⟩⟩
  induction fuel with
  | zero => exact Ensures.throw fun s hs => .inr hs.own
  | succ fuel ih =>
    unfold copyAcross
    refine (hread adoptBatch).bind fun batch => Ensures.ite ?_ ?_
    · exact fun _ => Ensures.pure fun _ hs => hs
    · exact fun _ => (happend _).bind fun _ => (hremove batch).bind fun _ => ih

/-- The placeholder is in; the cache's file is empty, the legacy one holds `l`. -/
structure Swapped (l : Table α) (s : Site α) : Prop where
  answers : s.answers.Reopens
  none : ∃ t, s.own.file = some t ∧ t.rows = []
  legacy : s.legacy.file = some l

theorem placeholder_swapped :
    Ensures (fun s : Site α => s.Fit ∧ s.own.rows = 0 ∧ s.legacy.file = some l)
      Storage.placeholder (fun _ => Swapped l) Stopped := by
  rintro s ⟨hfit, hzero, hlegacy⟩
  obtain ⟨t, ht, hcount⟩ := hfit.own
  have hfile := SqliteCache.file_of_table ht
  change Ends (act s.answers.placeholder _ s) _ _
  cases s.answers.placeholder with
  | ok =>
    refine ⟨hfit.answers, ⟨t, hfile, ?_⟩, hlegacy⟩
    rw [← List.length_eq_zero_iff, ← hcount, hzero]
  | fails => exact .inr hfit.own
  | diesBefore => exact .inl rfl
  | diesAfter => exact .inl rfl

theorem removeSidecars_swapped :
    Ensures (Swapped l) Storage.removeSidecars (fun _ => Swapped l) Stopped := by
  intro s hs
  have hsame : s.withoutSidecars = s := by
    rw [withoutSidecars, hs.answers.ownLags]
  simp only [Storage.removeSidecars, hsame]
  cases s.answers.removeSidecars with
  | ok => exact hs
  | fails => exact hs
  | diesBefore => exact .inl rfl
  | diesAfter => exact .inl rfl

theorem rename_swapped :
    Ensures (Swapped l) Storage.rename
      (fun renamed s => if renamed then s.answers.Reopens ∧ s.own.file = some l
        else s.Swapped l) Stopped := by
  intro s hs
  simp only [Storage.rename]
  cases s.answers.rename with
  | ok =>
    refine ⟨hs.answers, ?_⟩
    simp only [renamed, hs.answers.ownLags, hs.answers.legacyLags, hs.legacy]
    rfl
  | fails => exact hs
  | diesBefore => exact .inl rfl
  | diesAfter => exact .inl rfl

theorem reopen_fit (renamed : Bool) :
    Ensures
      (fun s : Site α => if renamed then s.answers.Reopens ∧ s.own.file = some l
        else s.Swapped l)
      (Storage.reopen (if renamed then l.rows.length else 0))
      (fun _ s => s.Fit ∧ (renamed = false → s.legacy.file = some l)) Stopped := by
  intro s hs
  have hreopens : s.answers.Reopens := by
    cases renamed with
    | true => exact hs.1
    | false => exact hs.answers
  change Ends (act s.answers.reopen _ s) _ _
  cases hfate : s.answers.reopen with
  | ok =>
    cases renamed with
    | true =>
      refine ⟨⟨⟨l, ?_, rfl⟩, hreopens⟩, Bool.noConfusion⟩
      simp only [SqliteCache.table, hs.2, Option.getD_some]
    | false =>
      obtain ⟨t, ht, hrows⟩ := hs.none
      refine ⟨⟨⟨t, ?_, ?_⟩, hreopens⟩, fun _ => hs.legacy⟩
      · simp only [SqliteCache.table, ht, Option.getD_some]
      · rw [hrows]
        rfl
  | fails => exact absurd hfate hreopens.reopen
  | diesBefore => exact .inl rfl
  | diesAfter => exact .inl rfl

/-- Only a reopening that fails would leave the placeholder in. -/
theorem takeOver_fit :
    Ensures (fun s : Site α => s.Fit ∧ s.own.rows = 0 ∧ s.legacy.file = some l)
      (takeOver l.rows.length)
      (fun renamed s => s.Fit ∧ (renamed = false → s.legacy.file = some l)) Stopped := by
  have hclose : Ensures (fun s : Site α => s.Fit ∧ s.own.rows = 0 ∧ s.legacy.file = some l)
      Storage.closeLegacy (fun _ s => s.Fit ∧ s.own.rows = 0 ∧ s.legacy.file = some l)
      Stopped := fun s hs => hs
  unfold takeOver
  exact hclose.bind fun _ => placeholder_swapped.bind fun _ => removeSidecars_swapped.bind fun _ =>
    rename_swapped.bind fun renamed => (reopen_fit renamed).bind fun _ =>
      Ensures.pure fun _ hs => hs

theorem adoptByCopy_fit (fuel moved : Nat) :
    Ensures (Fit (α := α)) (adoptByCopy fuel moved) (fun _ => Fit) Stopped := by
  unfold adoptByCopy
  exact (copyAcross_fit fuel).bind fun _ =>
    deleteLegacy_fit.bind fun _ => Ensures.pure fun _ hs => hs

theorem adopt_fit (fuel : Nat) : Ensures (Fit (α := α)) (adopt fuel) (fun _ => Fit) Stopped := by
  intro s hs
  unfold adopt
  have hthere : Ensures (fun t => t = s) Storage.legacyThere
      (fun there t => there = s.legacy.file.isSome ∧ t = s) Stopped := by
    rintro t rfl
    exact ⟨rfl, rfl⟩
  refine hthere.bind (fun there => ?_) s rfl
  cases hfile : s.legacy.file with
  | none =>
    rintro t ⟨rfl, rfl⟩
    exact hs
  | some l =>
    rintro t ⟨rfl, rfl⟩
    refine openLegacy_fit.bind (fun moved => ?_) t ⟨hs, hfile⟩
    refine Ensures.ite (fun _ => ?_) fun _ => ?_
    · exact (deleteLegacy_fit.bind fun _ => Ensures.pure fun _ h => h).of_imp fun _ h => h.2.1
    · rintro u ⟨rfl, hu, hlegacy⟩
      have hrows : Ensures (fun v => v = u) Storage.ownRows
          (fun n v => u.own.rows = n ∧ v = u) Stopped := by
        rintro v rfl
        exact ⟨rfl, rfl⟩
      refine hrows.bind (fun n => Ensures.ite ?_ fun _ => ?_) u rfl
      · rintro rfl
        have htake : Ensures (fun v => u.own.rows = 0 ∧ v = u) (takeOver l.rows.length)
            (fun renamed s => s.Fit ∧ (renamed = false → s.legacy.file = some l)) Stopped := by
          refine takeOver_fit.of_imp ?_
          rintro v ⟨hzero, rfl⟩
          exact ⟨hu, hzero, hlegacy⟩
        refine htake.bind fun renamed => ?_
        cases renamed with
        | true => exact Ensures.pure fun _ h => h.1
        | false =>
          -- It could not be renamed: the legacy cache is opened again, and copied.
          refine (openLegacy_fit.of_imp fun v hv => ⟨hv.1, hv.2 rfl⟩).bind fun again => ?_
          exact (adoptByCopy_fit fuel _).of_imp fun _ h => h.2.1
      · refine (adoptByCopy_fit fuel _).of_imp ?_
        rintro v ⟨-, rfl⟩
        exact hu

end Site

/-! ### Runs -/

namespace SqliteCache

/-- No step of this operation fails once the placeholder is in. -/
def SafeOp (c : SqliteCache α) : CacheCall α → Prop
  | .append _ | .oldest _ | .remove _ => True
  | .reset => c.ResetsCleanly
  | .adopt _ answers => answers.Reopens

theorem InOrder.op {c c' : SqliteCache α} {o : CacheCall α} (h : c.InOrder) (hsafe : c.SafeOp o)
    (hop : c.op o = some c') : c'.InOrder := by
  cases o with
  | append frames => exact Option.some.inj hop ▸ h.append frames
  | oldest limit => exact Option.some.inj hop ▸ h.oldest limit
  | remove frames => exact Option.some.inj hop ▸ h.remove frames
  | reset => exact Option.some.inj hop ▸ h.reset hsafe
  | adopt legacy answers =>
    have hends : Ends (c.adopting legacy answers) (fun _ => Site.Fit) Site.Stopped :=
      Site.adopt_fit _ _ ⟨h, hsafe⟩
    rw [SqliteCache.op] at hop
    cases hcall : c.adopting legacy answers with
    | ok moved s =>
      rw [hcall] at hends hop
      exact Option.some.inj hop ▸ hends.own
    | error e s =>
      rw [hcall] at hends hop
      cases e with
      | crashed => cases hop
      | failed why => exact Option.some.inj hop ▸ hends.resolve_left Halt.noConfusion
      | looping => exact Option.some.inj hop ▸ hends.resolve_left Halt.noConfusion

/-- An append to a cache in order puts the batch in the file, unless it fails and changes nothing. -/
theorem InOrder.append_stored {c : SqliteCache α} (h : c.InOrder) (xs : List α) :
    (∀ n, (c.append xs).1 = .ok n →
      n = xs.length ∧ framesIn (c.append xs).2.file = framesIn c.file ++ xs) ∧
      (c.host.append.headD false = false → (c.append xs).1 = .ok xs.length) := by
  obtain ⟨t, ht, -⟩ := h
  by_cases hxs : xs = []
  · rw [hxs]
    exact ⟨fun n hn => ⟨(Except.ok.inj hn).symm, (List.append_nil _).symm⟩, fun _ => rfl⟩
  · obtain ⟨t', ht', happend⟩ | ⟨e, hfails, happend⟩ := c.append_cases hxs
    · rw [happend]
      refine ⟨fun n hn => ⟨(Except.ok.inj hn).symm, ?_⟩, fun _ => rfl⟩
      rw [framesIn_insert, file_of_table ht']
    · rw [happend]
      exact ⟨fun n hn => by simp at hn, fun hok => absurd hok (hfails ⟨t, ht⟩)⟩

end SqliteCache

/-- While no step of `reset` or of `take_over` fails once the placeholder is in, after every
operation the cache is its file and its count is that file's, and what is appended next is in it. -/
theorem cache_stays_in_order (ops : List (CacheCall α)) (c c' : SqliteCache α) (hc : c.InOrder)
    (hsafe : Along SqliteCache.op SqliteCache.SafeOp c ops)
    (hrun : runs SqliteCache.op c ops = some c') :
    c'.InOrder ∧ ∀ xs, (∀ n, (c'.append xs).1 = .ok n →
        n = xs.length ∧ framesIn (c'.append xs).2.file = framesIn c'.file ++ xs) ∧
      (c'.host.append.headD false = false → (c'.append xs).1 = .ok xs.length) := by
  have horder : c'.InOrder :=
    Along.invariant (fun hs hok he => SqliteCache.InOrder.op hs hok he) hc hsafe hrun
  exact ⟨horder, horder.append_stored⟩

/-- A cache whose first reset fails, but early, and whose second one does not. -/
def benchCache : SqliteCache Nat :=
  .opened .empty 1000000 { reset := [some .openInMemory, none] }

theorem cache_stays_in_order_bench :
    ∃ c', runs SqliteCache.op benchCache
        [.append [1], .reset, .adopt (some (Table.empty.insert [2])) {}, .reset] = some c' ∧
      c'.InOrder ∧ framesIn (c'.append [3]).2.file = [3] := by
  have hsafe : Along SqliteCache.op SqliteCache.SafeOp benchCache
      [.append [1], .reset, .adopt (some (Table.empty.insert [2])) {}, .reset] :=
    ⟨trivial, .inr rfl, ⟨rfl, rfl, by decide⟩, .inl rfl, trivial⟩
  obtain ⟨c', hrun⟩ : ∃ c', runs SqliteCache.op benchCache
      [.append [1], .reset, .adopt (some (Table.empty.insert [2])) {}, .reset] = some c' :=
    ⟨_, rfl⟩
  have horder := cache_stays_in_order _ benchCache c' ⟨.empty, rfl, rfl⟩ hsafe hrun
  refine ⟨c', hrun, horder.1, ?_⟩
  obtain rfl : SqliteCache.opened .empty 1000000 {} = c' := Option.some.inj hrun
  rfl

/-- A reset that cannot open the fresh file leaves a placeholder, which stores nothing. -/
theorem reset_leaves_placeholder :
    ∃ c', runs SqliteCache.op
        (.opened .empty 1000000 { reset := [some .openConn] } : SqliteCache Nat) [.reset] =
          some c' ∧
      ¬ c'.InOrder ∧ (c'.append [7]).1 = .error SqliteCache.noTable := by
  refine ⟨_, rfl, ?_, rfl⟩
  rintro ⟨t, ht, -⟩
  cases ht

end WireTap
