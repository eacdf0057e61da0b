import WireTap.Gateway.Equiv.KeyTable
import WireTap.Lib.Latest
import WireTap.Lib.Run

/-!
# A key once revoked

`validate` looks in a map, and the map is the table as some number of statements left it.  Three
things can go wrong when a reload overwrites it: the rows may be older than a call that has
returned, they may hold what a call has done that has not, or may never, return `Ok`, and the call
that overwrites may have been overtaken by another that returned before it.  `InOrder` excludes them
for one key.  In the runs it allows, the map is at least as new as every call that has returned and
what it gives the key is of such calls (`Invariant.cache`); what the statements do to the key is a
matter of the table alone, and the two make `run_revokes`.
-/

namespace WireTap.Gateway

/-! ### The store -/

namespace KeyStore

/-- The table as the first `k` statements left it. -/
def version (s : KeyStore) (k : Nat) : KeyTable := s.start.after (s.log.take k)

/-- The call of the statement `i` has returned `Ok`. -/
def Returned (s : KeyStore) (i : Nat) : Prop := i ∈ s.returns

instance (s : KeyStore) (i : Nat) : Decidable (s.Returned i) := inferInstanceAs (Decidable (_ ∈ _))

/-- It has, and the one of `j` has after it. -/
def ReturnedBefore (s : KeyStore) (i j : Nat) : Prop := [i, j].Sublist s.returns

instance (s : KeyStore) (i j : Nat) : Decidable (s.ReturnedBefore i j) :=
  inferInstanceAs (Decidable (List.Sublist _ _))

end KeyStore

/-! ### Overwrites in order -/

namespace Statement

/-- The statement is about the key, more than its name. -/
def bears (id : Nat) : Statement → Bool
  | setDisabled id' _ | rotate id' _ | delete id' => id' = id
  | edit id' _ pin => id' = id && pin.isSome
  | create .. => false

/-- It gives the key its access back, or a pin. -/
def grants (id : Nat) : Statement → Bool
  | setDisabled id' disabled => id' = id && !disabled
  | edit id' _ pin => id' = id && pin.isSome
  | _ => false

/-- A later `st` undoes what this one has done: enables what it has disabled, disables what it has
enabled, or gives another pin. -/
def undoneBy (st₀ st : Statement) : Bool :=
  match st₀, st with
  | setDisabled id disabled, setDisabled id' disabled' => id' = id && disabled' == !disabled
  | edit id _ pin, edit id' _ pin' => id' = id && pin.isSome && pin'.isSome
  | _, _ => false

theorem bears_of_grants {id : Nat} {st : Statement} (h : st.grants id = true) :
    st.bears id = true := by
  cases st <;> simp_all [grants, bears]

/-- What gives a pin is an edit that bears on the key. -/
theorem grants_of_pinOf {id : Nat} {pin : Option String} {st : Statement}
    (h : st.pinOf id = some pin) : st.grants id = true := by
  cases st with
  | edit id' name pin' =>
    simp only [pinOf] at h
    split at h
    · rename_i hid
      simp [grants, hid, h]
    · cases h
  | _ => cases h

/-- One pin is undone by the next. -/
theorem undoneBy_of_pinOf {id : Nat} {pin₀ pin : Option String} {st₀ st : Statement}
    (h₀ : st₀.pinOf id = some pin₀) (h : st.pinOf id = some pin) : st₀.undoneBy st = true := by
  cases st₀ with
  | edit id₀ name₀ p₀ =>
    cases st with
    | edit id' name' p =>
      simp only [pinOf] at h₀ h
      split at h₀
      · split at h
        · rename_i hid₀ hid
          simp [undoneBy, hid₀, hid, h₀, h]
        · cases h
      · cases h₀
    | _ => cases h
  | _ => cases h₀

/-- What undoes a pin is a pin. -/
theorem pinOf_of_undoneBy {id : Nat} {pin₀ : Option String} {st₀ st : Statement}
    (h₀ : st₀.pinOf id = some pin₀) (hundone : st₀.undoneBy st = true) :
    ∃ pin, st.pinOf id = some pin := by
  cases st₀ with
  | edit id₀ name₀ p₀ =>
    cases st with
    | edit id' name' p =>
      simp only [undoneBy, Bool.and_eq_true, decide_eq_true_eq] at hundone
      obtain ⟨⟨hid', -⟩, hsome⟩ := hundone
      simp only [pinOf] at h₀
      split at h₀
      · rename_i hid₀
        obtain ⟨pin, rfl⟩ := Option.isSome_iff_exists.mp hsome
        exact ⟨pin, by simp [pinOf, hid', hid₀]⟩
      · cases h₀
    | _ => cases hundone
  | _ => cases h₀

end Statement

namespace KeyStore

/-- Among the first `k` statements, no later one undoes `j`. -/
def Stands (s : KeyStore) (k j : Nat) : Prop :=
  ∀ st₀ ∈ s.log[j]?, ∀ j' < k, j < j' → ∀ st ∈ s.log[j']?, st₀.undoneBy st = false

instance (s : KeyStore) (k j : Nat) : Decidable (s.Stands k j) :=
  inferInstanceAs (Decidable (∀ st₀ ∈ s.log[j]?, _))

/-- What a call with the statement `own` may put in the map: the rows that `k` statements have left.
They include the statements on the key of all calls that have returned; what stands in them and
gives the key something is of a call that has returned, or the call's own; and nothing in them that
does so has undone the call's own. -/
structure MayPut (s : KeyStore) (id : Nat) (own : Option Nat) (k : Nat) : Prop where
  newer : ∀ j ∈ s.returns, ∀ st ∈ s.log[j]?, st.bears id → j < k
  settled : ∀ j < k, ∀ st ∈ s.log[j]?, st.grants id → s.Stands k j → own = some j ∨ s.Returned j
  first : ∀ i ∈ own, ∀ st₀ ∈ s.log[i]?, ∀ j < k, i < j → ∀ st ∈ s.log[j]?, st.grants id →
    st₀.undoneBy st = false

instance (s : KeyStore) (id : Nat) (own : Option Nat) (k : Nat) :
    Decidable (s.MayPut id own k) :=
  decidable_of_iff
    ((∀ j ∈ s.returns, ∀ st ∈ s.log[j]?, st.bears id → j < k) ∧
      (∀ j < k, ∀ st ∈ s.log[j]?, st.grants id → s.Stands k j → own = some j ∨ s.Returned j) ∧
      ∀ i ∈ own, ∀ st₀ ∈ s.log[i]?, ∀ j < k, i < j → ∀ st ∈ s.log[j]?, st.grants id →
        st₀.undoneBy st = false)
    ⟨fun h => ⟨h.1, h.2.1, h.2.2⟩, fun h => ⟨h.newer, h.settled, h.first⟩⟩

/-- The call that overwrites the map may, as far as the key is concerned. -/
def InOrder (id : Nat) (s : KeyStore) : KeyEvent → Prop
  | .overwrite i =>
    match s.calls[i]? with
    | some ⟨own, .read k _⟩ => s.MayPut id own k
    | _ => True
  | _ => True

instance (id : Nat) (s : KeyStore) (e : KeyEvent) : Decidable (s.InOrder id e) := by
  unfold InOrder
  split
  · split <;> infer_instance
  · infer_instance

/-- What a call under way has read includes its own statement. -/
def Under (s : KeyStore) (c : Call) : Prop :=
  match c.stage with
  | .read k map =>
    k ≤ s.log.length ∧ map = (s.version k).load ∧ ∀ i ∈ c.statement, i < k
  | _ => ∀ i ∈ c.statement, i < s.log.length

/-- What has returned before `b` is no statement that gives the key something and has undone it. -/
def Unovertaken (s : KeyStore) (id a b : Nat) : Prop :=
  ∀ st ∈ s.log[a]?, ∀ st₀ ∈ s.log[b]?, st.grants id → b < a → st₀.undoneBy st = false

structure Invariant (id : Nat) (s : KeyStore) : Prop where
  table : s.table = s.start.after s.log
  /-- Every statement of the log succeeded, and its key was new. -/
  logged : ∀ i st, s.log[i]? = some st →
    ((s.version i).exec st).isSome ∧ ∀ h ∈ st.newHash, h ∉ usedHashes s.start (s.log.take i)
  calls : ∀ c ∈ s.calls, s.Under c
  returned : ∀ i ∈ s.returns, i < s.log.length
  order : s.returns.Pairwise (s.Unovertaken id)
  /-- The map is a table that includes every statement on the key that has returned, and gives it
  nothing that has not. -/
  cache : ∃ k ≤ s.log.length, s.cache = (s.version k).load ∧ s.MayPut id none k

/-- Further statements change nothing in what the others have left. -/
theorem MayPut.append {id k : Nat} {s s' : KeyStore} {own : Option Nat} {more : List Statement}
    (hput : s.MayPut id own k) (hlog : s'.log = s.log ++ more) (hreturns : s'.returns = s.returns)
    (hreturned : ∀ i ∈ s.returns, i < s.log.length) (hk : k ≤ s.log.length)
    (hown : ∀ j ∈ own, j < k) : s'.MayPut id own k := by
  have hsame : ∀ {j}, j < s.log.length → s'.log[j]? = s.log[j]? := by
    intro j hj
    rw [hlog, List.getElem?_append_left hj]
  refine ⟨?_, ?_, ?_⟩
  · intro j hj st₁ hst
    rw [hreturns] at hj
    rw [hsame (hreturned j hj)] at hst
    exact hput.newer j hj st₁ hst
  · intro j hj st₁ hst hgrants hstands
    rw [hsame (by omega)] at hst
    rw [Returned, hreturns]
    refine hput.settled j hj st₁ hst hgrants ?_
    intro st₀ hst₀ j' hj' hlt st₂ hst₂
    refine hstands st₀ ?_ j' hj' hlt st₂ ?_
    · rw [hsame (by omega)]
      exact hst₀
    · rw [hsame (by omega)]
      exact hst₂
  · intro i hi st₀ hst₀ j hj hlt st₁ hst
    have hik := hown i hi
    rw [hsame (by omega)] at hst₀ hst
    exact hput.first i hi st₀ hst₀ j hj hlt st₁ hst

theorem init_invariant (id : Nat) (t : KeyTable) (bootstrap : Option Hash) :
    (init t bootstrap).Invariant id where
  table := rfl
  logged := fun i st h => by cases h
  calls := fun c hc => by cases hc
  returned := fun i hi => by cases hi
  order := List.Pairwise.nil
  cache := by
    refine ⟨0, Nat.le_refl _, rfl, ?_, ?_, ?_⟩
    · intro j hj
      cases hj
    · intro j hj
      omega
    · intro i hi
      cases hi

/-- How far the calls have come changes nothing in the rest. -/
theorem invariant_calls {id : Nat} {s : KeyStore} {calls : List Call} (h : s.Invariant id)
    (hcalls : ∀ c ∈ calls, s.Under c) : ({ s with calls } : KeyStore).Invariant id where
  table := h.table
  logged := h.logged
  calls := hcalls
  returned := h.returned
  order := h.order
  cache := by
    obtain ⟨k, hk, hcache, hput⟩ := h.cache
    refine ⟨k, hk, hcache, ?_⟩
    exact hput.append (List.append_nil _).symm rfl h.returned hk (fun j hj => by cases hj)

/-- Changing one call's stage changes nothing for the others. -/
theorem invariant_set {id : Nat} {s : KeyStore} {c : Call} {i : Nat} (h : s.Invariant id)
    (hc : s.Under c) : ({ s with calls := s.calls.set i c } : KeyStore).Invariant id := by
  refine invariant_calls h ?_
  intro c' hc'
  rcases List.mem_or_eq_of_mem_set hc' with hold | rfl
  · exact h.calls c' hold
  · exact hc

/-- A call that has read `k` statements overwrites the map, and returns. -/
theorem overwrite_invariant {id k i : Nat} {s : KeyStore} {own : Option Nat} (h : s.Invariant id)
    (hk : k ≤ s.log.length) (hown : ∀ j ∈ own, j < k) (hput : s.MayPut id own k) :
    ({ s with
       cache := (s.version k).load, calls := s.calls.set i ⟨own, .returned⟩
       returns := s.returns ++ own.toList } : KeyStore).Invariant id where
  table := h.table
  logged := h.logged
  calls := by
    intro c hc
    rcases List.mem_or_eq_of_mem_set hc with hold | rfl
    · exact h.calls c hold
    · exact fun j hj => Nat.lt_of_lt_of_le (hown j hj) hk
  returned := by
    intro j hj
    rcases List.mem_append.mp hj with hold | hself
    · exact h.returned j hold
    · exact Nat.lt_of_lt_of_le (hown j (Option.mem_toList.mp hself)) hk
  order := by
    refine List.pairwise_append.mpr ⟨h.order, ?_, ?_⟩
    · cases own <;> simp
    · -- What returned before is in what this call has read, and has not undone its statement.
      intro a ha b hb st hst st₀ hst₀ hgrants hlt
      have hak : a < k := hput.newer a ha st hst (Statement.bears_of_grants hgrants)
      exact hput.first b (Option.mem_toList.mp hb) st₀ hst₀ a hak hlt st hst hgrants
  cache := by
    refine ⟨k, hk, rfl, ?_, ?_, ?_⟩
    · intro j hj st hst hbears
      rcases List.mem_append.mp hj with hold | hself
      · exact hput.newer j hold st hst hbears
      · exact hown j (Option.mem_toList.mp hself)
    · intro j hj st hst hgrants hstands
      rcases hput.settled j hj st hst hgrants hstands with hself | hold
      · exact .inr (List.mem_append_right _ (Option.mem_toList.mpr hself))
      · exact .inr (List.mem_append_left _ hold)
    · intro j hj
      cases hj

theorem call_invariant {id : Nat} {s : KeyStore} {st : Statement} {table : KeyTable}
    (h : s.Invariant id) (hfresh : s.Fresh st) (hexec : s.table.exec st = some table) :
    ({ s with table, log := s.log ++ [st],
              calls := s.calls ++ [⟨some s.log.length, .waiting⟩] } : KeyStore).Invariant id := by
  have htake : ∀ {k}, k ≤ s.log.length → (s.log ++ [st]).take k = s.log.take k :=
    fun hk => List.take_append_of_le_length hk
  refine ⟨?_, ?_, ?_, ?_, ?_, ?_⟩
  · change table = s.start.after (s.log ++ [st])
    rw [KeyTable.after_append, ← h.table]
    change table = s.table.next st
    rw [KeyTable.next, hexec, Option.getD_some]
  · intro i st' hi
    change (s.log ++ [st])[i]? = some st' at hi
    change ((s.start.after ((s.log ++ [st]).take i)).exec st').isSome ∧
      ∀ h ∈ st'.newHash, h ∉ usedHashes s.start ((s.log ++ [st]).take i)
    by_cases hlt : i < s.log.length
    · rw [htake (Nat.le_of_lt hlt)]
      rw [List.getElem?_append_left hlt] at hi
      exact h.logged i st' hi
    · -- The new statement: it ran on the table as it is now, and made a key of its own.
      have hlen := (List.getElem?_eq_some_iff.mp hi).1
      rw [List.length_append, List.length_singleton] at hlen
      obtain rfl : i = s.log.length := by omega
      rw [List.getElem?_concat_length] at hi
      cases hi
      rw [htake (Nat.le_refl _), List.take_length, ← h.table, hexec]
      exact ⟨rfl, hfresh⟩
  · intro c hc
    rcases List.mem_append.mp hc with hold | hnew
    -- What the other calls read is of an older version, which the new statement leaves.
    · have hunder := h.calls c hold
      unfold Under at hunder ⊢
      split at hunder
      · rename_i k map hstage
        obtain ⟨hk, hmap, hown⟩ := hunder
        refine ⟨Nat.le_trans hk (by simp), ?_, hown⟩
        change map = (s.start.after ((s.log ++ [st]).take k)).load
        rw [htake hk]
        exact hmap
      · intro i hi
        exact Nat.lt_of_lt_of_le (hunder i hi) (by simp)
    · rw [List.mem_singleton.mp hnew]
      intro i hi
      cases hi
      simp
  · intro i hi
    exact Nat.lt_of_lt_of_le (h.returned i hi) (by simp)
  · refine h.order.imp_of_mem ?_
    intro a b ha hb hab st₁ hst₁ st₀ hst₀
    change (s.log ++ [st])[a]? = some st₁ at hst₁
    change (s.log ++ [st])[b]? = some st₀ at hst₀
    rw [List.getElem?_append_left (h.returned a ha)] at hst₁
    rw [List.getElem?_append_left (h.returned b hb)] at hst₀
    exact hab st₁ hst₁ st₀ hst₀
  · obtain ⟨k, hk, hcache, hput⟩ := h.cache
    refine ⟨k, Nat.le_trans hk (by simp), ?_, ?_⟩
    · change s.cache = (s.start.after ((s.log ++ [st]).take k)).load
      rw [htake hk]
      exact hcache
    · exact hput.append rfl rfl h.returned hk (fun j hj => by cases hj)

/-- Every step that overwrites in order keeps the invariant. -/
theorem step_invariant {id : Nat} {s s' : KeyStore} {e : KeyEvent} (h : s.Invariant id)
    (horder : s.InOrder id e) (hstep : s.step e = some s') : s'.Invariant id := by
  cases e with
  | call st =>
    obtain ⟨hfresh, hnext⟩ := of_guard hstep
    obtain ⟨table, hexec, rfl⟩ := Option.map_eq_some_iff.mp hnext
    exact call_invariant h hfresh hexec
  | reload =>
    cases hstep
    refine invariant_calls h ?_
    intro c hc
    rcases List.mem_append.mp hc with hold | hnew
    · exact h.calls c hold
    · rw [List.mem_singleton.mp hnew]
      intro i hi
      cases hi
  | read i =>
    simp only [step] at hstep
    split at hstep
    · rename_i statement hcall
      cases hstep
      have hunder := h.calls _ (List.mem_of_getElem? hcall)
      refine invariant_set h ⟨Nat.le_refl _, ?_, hunder⟩
      rw [version, List.take_length, ← h.table]
    · cases hstep
  | overwrite i =>
    simp only [step] at hstep
    split at hstep
    · rename_i own k map hcall
      cases hstep
      obtain ⟨hk, rfl, hown⟩ := h.calls _ (List.mem_of_getElem? hcall)
      have hput : s.MayPut id own k := by
        rw [InOrder, hcall] at horder
        exact horder
      exact overwrite_invariant h hk hown hput
    · cases hstep
  | fail i =>
    simp only [step] at hstep
    split at hstep
    · rename_i statement hcall
      cases hstep
      have hunder := h.calls _ (List.mem_of_getElem? hcall)
      exact invariant_set h hunder
    · rename_i statement k' map hcall
      cases hstep
      obtain ⟨hk', -, hown⟩ := h.calls _ (List.mem_of_getElem? hcall)
      exact invariant_set h (fun j hj => Nat.lt_of_lt_of_le (hown j hj) hk')
    · cases hstep

/-! ### From one version to the next -/

variable {s : KeyStore}

theorem version_succ (s : KeyStore) {j : Nat} {st : Statement} (hj : s.log[j]? = some st) :
    s.version (j + 1) = (s.version j).next st := by
  rw [version, version, List.take_add_one, hj, KeyTable.after_append]
  rfl

/-- What holds of one version and is kept by every statement after it holds of every later one. -/
theorem version_induction {P : KeyTable → Prop} {a k : Nat} (ha : P (s.version a))
    (hnext : ∀ j st, a ≤ j → s.log[j]? = some st → P (s.version j) → P ((s.version j).next st))
    (hak : a ≤ k) : P (s.version k) := by
  induction hak with
  | refl => exact ha
  | @step j haj ih =>
    cases hj : s.log[j]? with
    | some st =>
      rw [s.version_succ hj]
      exact hnext j st haj hj ih
    | none =>
      -- Past the end there is nothing more.
      have hlen := List.getElem?_eq_none_iff.mp hj
      rw [version, List.take_of_length_le (by omega), ← List.take_of_length_le hlen]
      exact ih

theorem nextId_mono (s : KeyStore) {a k : Nat} (hak : a ≤ k) :
    (s.version a).nextId ≤ (s.version k).nextId := by
  refine version_induction (P := fun t => (s.version a).nextId ≤ t.nextId) (Nat.le_refl _) ?_ hak
  intro j st _ _ hle
  exact Nat.le_trans hle ((s.version j).le_nextId_next st)

/-- A statement of the log turned the version before it into the one after it. -/
theorem Invariant.exec_version {id : Nat} (h : s.Invariant id) {i : Nat} {st : Statement}
    (hi : s.log[i]? = some st) : (s.version i).exec st = some (s.version (i + 1)) := by
  obtain ⟨t, ht⟩ := Option.isSome_iff_exists.mp (h.logged i st hi).1
  rw [s.version_succ hi, KeyTable.next, ht, Option.getD_some]

/-- A hash in use when a statement ran is not made again by it or after it. -/
theorem Invariant.newHash_ne {id : Nat} (h : s.Invariant id) {i j : Nat} {st : Statement}
    {r : KeyRow} (hr : r ∈ (s.version i).rows) (hij : i ≤ j) (hj : s.log[j]? = some st) :
    st.newHash ≠ some r.keyHash := by
  intro hmade
  refine (h.logged j st hj).2 _ hmade ?_
  have hused := mem_usedHashes hr
  unfold usedHashes at hused ⊢
  rcases List.mem_append.mp hused with hs | hs
  · exact List.mem_append_left _ hs
  · refine List.mem_append_right _ (List.Sublist.subset (List.Sublist.filterMap _ ?_) hs)
    exact List.take_sublist_take_left hij

/-! ### A revoked key -/

/-- Two calls that have returned have done so one after the other. -/
theorem returnedBefore_or {i j : Nat} (hi : s.Returned i) (hj : s.Returned j) (hne : i ≠ j) :
    s.ReturnedBefore i j ∨ s.ReturnedBefore j i := by
  obtain ⟨xs, ys, hsplit⟩ := List.append_of_mem hi
  rw [Returned, hsplit] at hj
  unfold ReturnedBefore
  rw [hsplit]
  rcases List.mem_append.mp hj with hj | hj
  · have hsub : ([j] ++ [i]).Sublist (xs ++ i :: ys) :=
      (List.singleton_sublist.mpr hj).append (List.singleton_sublist.mpr List.mem_cons_self)
    exact .inr hsub
  · rcases List.mem_cons.mp hj with heq | hj
    · exact absurd heq.symm hne
    · have hsub : ([] ++ [i, j]).Sublist (xs ++ i :: ys) :=
        (List.nil_sublist xs).append ((List.singleton_sublist.mpr hj).cons_cons i)
      exact .inl hsub

/-- A call that undoes another's statement, and gives the key something, returns after it. -/
theorem Invariant.returnedBefore {id i j : Nat} {st₀ st : Statement} (h : s.Invariant id)
    (hi : s.Returned i) (hj : s.Returned j) (hij : i < j) (hst₀ : s.log[i]? = some st₀)
    (hst : s.log[j]? = some st) (hgrants : st.grants id = true)
    (hundone : st₀.undoneBy st = true) : s.ReturnedBefore i j := by
  rcases returnedBefore_or hi hj (Nat.ne_of_lt hij) with hbefore | hafter
  · exact hbefore
  · have hnot := List.pairwise_iff_forall_sublist.mp h.order hafter st hst st₀ hst₀ hgrants hij
    rw [hundone] at hnot
    cases hnot

/-- A key that was gone and is so no longer was enabled again, and not disabled since. -/
theorem Invariant.exists_enabled {id i k : Nat} {hash : Hash} (h : s.Invariant id) (hik : i ≤ k)
    (hk : k ≤ s.log.length) (hgone : Gone hash id (s.version i))
    (hback : ¬Gone hash id (s.version k))
    (hnew : ∀ j st, i ≤ j → s.log[j]? = some st → st.newHash ≠ some hash) :
    ∃ j, i ≤ j ∧ j < k ∧ s.log[j]? = some (.setDisabled id false) ∧
      (∃ r ∈ (s.version j).rows, r.id = id ∧ r.keyHash = hash ∧ r.disabled = true) ∧
      s.Stands k j := by
  obtain ⟨j, hij, hjk, hgonej, hlast⟩ :=
    Lib.exists_last (p := fun m => Gone hash id (s.version m)) hik hgone hback
  obtain ⟨st, hj⟩ : ∃ st, s.log[j]? = some st :=
    ⟨s.log[j], List.getElem?_eq_getElem (Nat.lt_of_lt_of_le hjk hk)⟩
  have hnot : ¬Gone hash id (s.version (j + 1)) := hlast (j + 1) (Nat.lt_succ_self j) hjk
  have henable : st = .setDisabled id false := by
    by_contra hne
    refine hnot ?_
    rw [s.version_succ hj]
    exact hgonej.next (hnew j st hij hj) hne
  subst henable
  refine ⟨j, hij, hjk, hj, ?_, ?_⟩
  · -- A row has the hash again after it, so a row had it before.
    by_contra hnone
    refine hnot ?_
    intro r hr hh
    rw [(KeyTable.exec_eq_some (h.exec_version hj)).1] at hr
    rcases Statement.mem_rows_hash hr with ⟨r₀, hr₀, -, -, hhash⟩ | hmade
    · obtain ⟨hid, hdisabled⟩ := hgonej r₀ hr₀ (hhash.symm.trans hh)
      exact absurd ⟨r₀, hr₀, hid, hhash.symm.trans hh, hdisabled⟩ hnone
    · cases hmade
  · intro st₀ hst₀ n hn hjn st hst
    rw [hj] at hst₀
    cases hst₀
    by_contra hundone
    -- A disabling in between leaves the key gone, as only its row has the hash.
    have hdisable : st = .setDisabled id true := by
      cases st <;> simp_all [Statement.undoneBy]
    subst hdisable
    have hheld : Held hash id (s.version n) := by
      refine version_induction (fun r hr hh => (hgonej r hr hh).1) ?_ (Nat.le_of_lt hjn)
      intro m st' hjm hm hheld
      exact hheld.next (hnew m st' (Nat.le_trans hij hjm) hm)
    exact hlast (n + 1) (by omega) hn (hheld.disable (h.exec_version hst))

/-- A key whose revocation has returned is not accepted, unless it was only disabled and a call that
enabled its row, with the hash it had, has returned since. -/
theorem Invariant.validate_revoked {id i : Nat} {st : Statement} {hashKey : String → Hash}
    {key : String} (h : s.Invariant id) (hi : s.log[i]? = some st) (hreturned : s.Returned i)
    (hrevokes : Revokes st (s.version i) (hashKey key) id)
    (hadmin : s.bootstrap ≠ some (hashKey key)) (haccepted : (s.validate hashKey key).isSome) :
    st = .setDisabled id true ∧ ∃ j, s.ReturnedBefore i j ∧
      s.log[j]? = some (.setDisabled id false) ∧
      ∃ r ∈ (s.version j).rows, r.id = id ∧ r.keyHash = hashKey key ∧ r.disabled = true := by
  obtain ⟨k, hk, hcache, hput⟩ := h.cache
  have hback : ¬Gone (hashKey key) id (s.version k) := by
    intro hgone
    rw [validate, if_neg hadmin, hcache, hgone.lookup_load] at haccepted
    cases haccepted
  have hbears : st.bears id = true := by
    obtain ⟨_, _, _, _, ⟨-, rfl | ⟨_, rfl⟩⟩ | rfl⟩ := hrevokes
    all_goals simp [Statement.bears]
  have hik : i < k := hput.newer i hreturned st hi hbears
  have hnew : ∀ j st, i ≤ j → s.log[j]? = some st → st.newHash ≠ some (hashKey key) := by
    obtain ⟨r, hr, -, hhash, -⟩ := hrevokes
    intro j st hij hj
    rw [← hhash]
    exact h.newHash_ne hr hij hj
  have hexec := h.exec_version hi
  by_cases hst : st = .setDisabled id true
  · subst hst
    obtain ⟨j, hij, hjk, hj, hrow, hstands⟩ :=
      h.exists_enabled hik hk (hrevokes.held.disable hexec) hback
        (fun j st hij hj => hnew j st (by omega) hj)
    have hgrants : (Statement.setDisabled id false).grants id = true := by simp [Statement.grants]
    have hreturnedj : s.Returned j := by
      rcases hput.settled j hjk _ hj hgrants hstands with hnone | hreturnedj
      · cases hnone
      · exact hreturnedj
    have hbefore : s.ReturnedBefore i j :=
      h.returnedBefore hreturned hreturnedj (by omega) hi hj hgrants (by simp [Statement.undoneBy])
    exact ⟨rfl, j, hbefore, hj, hrow⟩
  · have hlost : Lost (hashKey key) (s.version k) := by
      refine version_induction (hrevokes.lost hst (hnew i st (Nat.le_refl i) hi) hexec) ?_ hik
      intro j st' hij hj hlost
      exact hlost.next (hnew j st' (by omega) hj)
    exact absurd (hlost.gone id) hback

/-! ### A key's role and pin -/

/-- The pin the statement `j` gave the key; it gave none if it found no such row. -/
def pinAt (s : KeyStore) (id j : Nat) : Option (Option String) :=
  s.log[j]?.bind fun st => if (s.version j).rows.any (·.id = id) then st.pinOf id else none

/-- The pins of the edits of the key that have returned, the last to return last. -/
def pins (s : KeyStore) (id : Nat) : List (Option String) := s.returns.filterMap (s.pinAt id)

/-- The key was made with this role and pin, or was there at the start. -/
def Made (s : KeyStore) (id : Nat) (role : Role) (pin : Option String) : Prop :=
  (∃ r ∈ s.start.rows, r.id = id ∧ r.role = role ∧ r.databasePin = pin) ∨
    ∃ j name keyHash, s.log[j]? = some (.create name keyHash role pin) ∧ (s.version j).nextId = id

theorem pinAt_isSome {id j : Nat} (h : (s.pinAt id j).isSome) :
    ∃ st pin, s.log[j]? = some st ∧ st.pinOf id = some pin ∧
      ∃ r ∈ (s.version j).rows, r.id = id := by
  obtain ⟨pin, hpin⟩ := Option.isSome_iff_exists.mp h
  obtain ⟨st, hj, hst⟩ := Option.bind_eq_some_iff.mp hpin
  obtain ⟨hrow, hst⟩ := of_guard hst
  obtain ⟨r, hr, hid⟩ := List.any_eq_true.mp hrow
  exact ⟨st, pin, hj, hst, r, hr, by simpa using hid⟩

theorem pinAt_eq {id j : Nat} {st : Statement} {r : KeyRow} (hj : s.log[j]? = some st)
    (hr : r ∈ (s.version j).rows) (hid : r.id = id) : s.pinAt id j = st.pinOf id := by
  have hrow : (s.version j).rows.any (·.id = id) = true :=
    List.any_eq_true.mpr ⟨r, hr, by simpa using hid⟩
  rw [pinAt, hj, Option.bind_some, if_pos hrow]

/-- A row of a later version, of a key that an earlier one had given out, was in it. -/
theorem exists_row {a k : Nat} (hak : a ≤ k) {r : KeyRow} (hr : r ∈ (s.version k).rows)
    (hlt : r.id < (s.version a).nextId) : ∃ r₀ ∈ (s.version a).rows, r₀.id = r.id := by
  refine version_induction
    (P := fun t => (s.version a).nextId ≤ t.nextId ∧ ∀ r ∈ t.rows, r.id < (s.version a).nextId →
      ∃ r₀ ∈ (s.version a).rows, r₀.id = r.id)
    ⟨Nat.le_refl _, fun r hr _ => ⟨r, hr, rfl⟩⟩ ?_ hak |>.2 r hr hlt
  rintro j st - - ⟨hle, hrows⟩
  refine ⟨Nat.le_trans hle ((s.version j).le_nextId_next st), ?_⟩
  intro r hr hlt
  rcases (s.version j).next_cases st with hsame | ⟨hnext, -⟩
  · rw [hsame] at hr
    exact hrows r hr hlt
  · rw [hnext] at hr
    rcases Statement.mem_rows hr with ⟨r₀, hr₀, rfl, -⟩ | ⟨_, _, _, _, -, rfl⟩
    · rw [Statement.update_id] at hlt ⊢
      exact hrows r₀ hr₀ hlt
    · -- A row made later has a later id.
      exact absurd hlt (Nat.not_lt.mpr hle)

/-- Every row has the role its key was made with, and the pin of the last edit of it. -/
theorem Invariant.row_made {id k : Nat} (h : s.Invariant id) (hk : k ≤ s.log.length) {r : KeyRow}
    (hr : r ∈ (s.version k).rows) :
    ∃ pin, s.Made r.id r.role pin ∧
      r.databasePin = ((List.range k).filterMap (s.pinAt r.id)).getLast?.getD pin := by
  induction k generalizing r with
  | zero => exact ⟨r.databasePin, .inl ⟨r, hr, rfl, rfl, rfl⟩, rfl⟩
  | succ k ih =>
    obtain ⟨st, hst⟩ : ∃ st, s.log[k]? = some st := ⟨s.log[k], List.getElem?_eq_getElem hk⟩
    rw [(KeyTable.exec_eq_some (h.exec_version hst)).1] at hr
    rcases Statement.mem_rows hr with ⟨r₀, hr₀, rfl, -⟩ | ⟨name, keyHash, role, pin, rfl, rfl⟩
    · obtain ⟨pin, hmade, hpin⟩ := ih (Nat.le_of_succ_le hk) hr₀
      refine ⟨pin, ?_, ?_⟩
      · rw [Statement.update_id, Statement.update_role]
        exact hmade
      · rw [Statement.update_id, Statement.update_pin, hpin, List.range_succ, List.filterMap_append,
          List.getLast?_append]
        rw [List.filterMap_cons, List.filterMap_nil, pinAt_eq hst hr₀ rfl]
        cases st.pinOf r₀.id <;> simp
    · -- The key is new, so nothing has edited it.
      refine ⟨pin, .inr ⟨k, name, keyHash, hst, rfl⟩, ?_⟩
      have hnone : (List.range (k + 1)).filterMap (s.pinAt (s.version k).nextId) = [] := by
        refine List.filterMap_eq_nil_iff.mpr ?_
        intro j hj
        by_contra hsome
        obtain ⟨st, _, _, _, r, hr, hid⟩ := pinAt_isSome (Option.isSome_iff_ne_none.mpr hsome)
        have hbelow := (s.version j).below r hr
        have hmono := s.nextId_mono (Nat.le_of_lt_succ (List.mem_range.mp hj))
        omega
      rw [hnone]
      rfl

/-- The last edit in a version that the map may be of is the last edit to return. -/
theorem Invariant.pins_eq {id k : Nat} (h : s.Invariant id) (hput : s.MayPut id none k) {r : KeyRow}
    (hr : r ∈ (s.version k).rows) (hid : r.id = id) :
    ((List.range k).filterMap (s.pinAt id)).getLast? = (s.pins id).getLast? := by
  refine Lib.getLast?_filterMap_eq List.pairwise_le_range ?_ ?_ ?_
  · refine (h.order.filter _).imp_of_mem ?_
    intro a b ha hb hab
    obtain ⟨st, pin, hst, hpin, -⟩ := pinAt_isSome (List.mem_filter.mp ha).2
    obtain ⟨st₀, pin₀, hst₀, hpin₀, -⟩ := pinAt_isSome (List.mem_filter.mp hb).2
    by_contra hlt
    have hnot := hab st hst st₀ hst₀ (Statement.grants_of_pinOf hpin) (Nat.lt_of_not_le hlt)
    rw [Statement.undoneBy_of_pinOf hpin₀ hpin] at hnot
    cases hnot
  · intro j hj hsome
    obtain ⟨st, pin, hst, hpin, -⟩ := pinAt_isSome hsome
    have hgrants := Statement.grants_of_pinOf hpin
    exact List.mem_range.mpr (hput.newer j hj st hst (Statement.bears_of_grants hgrants))
  · intro j hj hsome hlast
    obtain ⟨st, pin, hst, hpin, r₀, hr₀, hid₀⟩ := pinAt_isSome hsome
    have hstands : s.Stands k j := by
      -- A later edit found the row too, as the key is still there.
      intro st' hst' j' hj' hlt st'' hst''
      rw [hst] at hst'
      cases hst'
      by_contra hundone
      obtain ⟨pin', hpin'⟩ := Statement.pinOf_of_undoneBy hpin (by simpa using hundone)
      have hbelow := (s.version j).below r₀ hr₀
      have hmono := s.nextId_mono (Nat.le_of_lt hlt)
      obtain ⟨r', hr', hid'⟩ := exists_row (Nat.le_of_lt hj') hr (by omega)
      have hsome' : (s.pinAt id j').isSome := by
        rw [pinAt_eq hst'' hr' (hid'.trans hid), hpin']
        rfl
      have hle := hlast j' (List.mem_range.mpr hj') hsome'
      omega
    have hgrants := Statement.grants_of_pinOf hpin
    rcases hput.settled j (List.mem_range.mp hj) st hst hgrants hstands with hnone | hreturned
    · cases hnone
    · exact hreturned

/-- A key is answered with the role it was made with and the pin of the last edit to return. -/
theorem Invariant.validate_edited {id : Nat} {hashKey : String → Hash} {key : String}
    {info : KeyInfo} (h : s.Invariant id) (hadmin : s.bootstrap ≠ some (hashKey key))
    (hvalid : s.validate hashKey key = some info) (hid : info.id = id) :
    ∃ pin, s.Made id info.role pin ∧ info.databasePin = (s.pins id).getLast?.getD pin := by
  obtain ⟨k, hk, hcache, hput⟩ := h.cache
  rw [validate, if_neg hadmin, hcache] at hvalid
  obtain ⟨r, hr, -, -, rfl⟩ := KeyTable.load_lookup hvalid
  obtain ⟨pin, hmade, hpin⟩ := h.row_made hk hr
  have hid : r.id = id := hid
  rw [hid] at hmade hpin
  refine ⟨pin, hmade, ?_⟩
  rw [← h.pins_eq hput hr hid]
  exact hpin

/-- In every run whose overwrites are in order for the key `id`: once a call that revoked a
plaintext of it has returned, no `validate` accepts that, unless the call disabled the key and one
that enabled it again, unrotated, has returned since; and `validate` answers with the role the key
was made with and the pin of the last edit to return, or where none has, the one it was made
with. -/
theorem run_revokes (hashKey : String → Hash) (t : KeyTable) (bootstrap : Option Hash) (id : Nat)
    (events : List KeyEvent) (s : KeyStore)
    (horder : Along step (InOrder id) (init t bootstrap) events)
    (hrun : runs step (init t bootstrap) events = some s) (key : String)
    (hadmin : s.bootstrap ≠ some (hashKey key)) :
    (∀ i st, s.Returned i → s.log[i]? = some st → Revokes st (s.version i) (hashKey key) id →
      (s.validate hashKey key).isSome →
      st = .setDisabled id true ∧ ∃ j, s.ReturnedBefore i j ∧
        s.log[j]? = some (.setDisabled id false) ∧
        ∃ r ∈ (s.version j).rows, r.id = id ∧ r.keyHash = hashKey key ∧ r.disabled = true) ∧
    ∀ info, s.validate hashKey key = some info → info.id = id →
      ∃ pin, s.Made id info.role pin ∧ info.databasePin = (s.pins id).getLast?.getD pin := by
  have h : s.Invariant id :=
    Along.invariant step_invariant (init_invariant id t bootstrap) horder hrun
  constructor
  · intro i st hreturned hi hrevokes haccepted
    exact h.validate_revoked hi hreturned hrevokes hadmin haccepted
  · intro info hvalid hid
    exact h.validate_edited hadmin hvalid hid

/-- One key, `k`, whose hash is `h`. -/
def oneKey : KeyTable where
  rows := [⟨1, "site", "h", .ingest, none, false⟩]
  nextId := 2
  ids := by decide
  hashes := by decide
  below := by decide

/-- The key is pinned and disabled, and a reload beside the disabling puts its rows first. -/
def disabling : List KeyEvent :=
  [.call (.edit 1 none (some (some "can"))), .read 0, .overwrite 0,
    .call (.setDisabled 1 true), .reload, .read 2, .read 1, .overwrite 2, .overwrite 1]

/-- Then a call fails that would have pinned it elsewhere, and it is pinned again and enabled. -/
def enabling : List KeyEvent :=
  disabling ++
    [.call (.edit 1 none (some (some "lin"))), .fail 3,
      .call (.edit 1 (some "dock") (some none)), .read 4, .call (.setDisabled 1 false),
      .overwrite 4, .read 5, .overwrite 5]

/-- Disabled, the key is not accepted; enabled again, it is, with the pin of the last edit to
return. -/
theorem run_revokes_inOrder :
    (∃ s, runs step (init oneKey none) disabling = some s ∧ s.Returned 1 ∧
      s.validate (fun _ => "h") "k" = none) ∧
    ∃ s info, runs step (init oneKey none) enabling = some s ∧
      s.validate (fun _ => "h") "k" = some info ∧ info.databasePin = none := by
  constructor
  · have hfacts : (runs step (init oneKey none) disabling).map
        (fun s => (s.bootstrap, s.start, s.log, s.returns)) =
        some (none, oneKey, [.edit 1 none (some (some "can")), .setDisabled 1 true], [0, 1]) := by
      decide +kernel
    obtain ⟨s, hs, heq⟩ := Option.map_eq_some_iff.mp hfacts
    simp only [Prod.mk.injEq] at heq
    obtain ⟨hbootstrap, hstart, hlog, hreturns⟩ := heq
    have hreturned : s.Returned 1 := by
      rw [Returned, hreturns]
      decide
    have hrevokes : Revokes (.setDisabled 1 true) (s.version 1) "h" 1 := by
      rw [version, hstart, hlog]
      exact ⟨⟨1, "site", "h", .ingest, some "can", false⟩, by decide +kernel, rfl, rfl,
        .inl ⟨rfl, .inl rfl⟩⟩
    refine ⟨s, hs, hreturned, ?_⟩
    by_contra haccepted
    obtain ⟨-, j, -, hj, -⟩ := (run_revokes (fun _ => "h") oneKey none 1 disabling s
      (by decide +kernel) hs "k" (by rw [hbootstrap]; simp)).1 1 _ hreturned (by rw [hlog]; rfl)
      hrevokes (Option.isSome_iff_ne_none.mpr haccepted)
    -- Nothing has enabled it.
    have henable := List.mem_of_getElem? hj
    rw [hlog] at henable
    exact absurd henable (by decide)
  · have hfacts : (runs step (init oneKey none) enabling).map
        (fun s => (s.bootstrap, s.pins 1, (s.validate (fun _ => "h") "k").map KeyInfo.id)) =
        some (none, [some "can", none], some 1) := by
      decide +kernel
    obtain ⟨s, hs, heq⟩ := Option.map_eq_some_iff.mp hfacts
    simp only [Prod.mk.injEq] at heq
    obtain ⟨hbootstrap, hpins, hid⟩ := heq
    obtain ⟨info, hvalid, hid⟩ := Option.map_eq_some_iff.mp hid
    refine ⟨s, info, hs, hvalid, ?_⟩
    obtain ⟨pin, -, hpin⟩ := (run_revokes (fun _ => "h") oneKey none 1 enabling s
      (by decide +kernel) hs "k" (by rw [hbootstrap]; simp)).2 info hvalid hid
    rw [hpins] at hpin
    exact hpin

/-- The call that creates a key reads before the first key is disabled and overwrites after the
disabling call has returned: the disabled key is accepted again.  So it is where a call has enabled
it again and then failed, and the creating call reads that. -/
theorem run_accepts_disabled :
    (∃ s, runs step (init oneKey none)
        [.call (.create "new" "g" .read none), .read 0, .call (.setDisabled 1 true), .read 1,
          .overwrite 1, .overwrite 0] = some s ∧
      s.returns = [1, 0] ∧ s.log[1]? = some (.setDisabled 1 true) ∧ s.log.length = 2 ∧
      s.table.rows.map (·.disabled) = [true, false] ∧
      s.validate (fun _ => "h") "k" = some ⟨1, "site", .ingest, none⟩) ∧
    ∃ s, runs step (init oneKey none)
        [.call (.setDisabled 1 true), .read 0, .overwrite 0, .call (.setDisabled 1 false), .fail 1,
          .call (.create "new" "g" .read none), .read 2, .overwrite 2] = some s ∧
      s.returns = [0, 2] ∧ s.log[0]? = some (.setDisabled 1 true) ∧
      s.validate (fun _ => "h") "k" = some ⟨1, "site", .ingest, none⟩ := by
  constructor
  · have hfacts : (runs step (init oneKey none)
          [.call (.create "new" "g" .read none), .read 0, .call (.setDisabled 1 true), .read 1,
            .overwrite 1, .overwrite 0]).map
          (fun s => (s.returns, s.log, s.table.rows.map (·.disabled),
            s.validate (fun _ => "h") "k")) =
        some ([1, 0], [.create "new" "g" .read none, .setDisabled 1 true], [true, false],
          some ⟨1, "site", .ingest, none⟩) := by
      decide +kernel
    obtain ⟨s, hs, heq⟩ := Option.map_eq_some_iff.mp hfacts
    simp only [Prod.mk.injEq] at heq
    obtain ⟨hreturns, hlog, hrows, hvalid⟩ := heq
    exact ⟨s, hs, hreturns, by rw [hlog]; rfl, by rw [hlog]; rfl, hrows, hvalid⟩
  · have hfacts : (runs step (init oneKey none)
          [.call (.setDisabled 1 true), .read 0, .overwrite 0, .call (.setDisabled 1 false),
            .fail 1, .call (.create "new" "g" .read none), .read 2, .overwrite 2]).map
          (fun s => (s.returns, s.log[0]?, s.validate (fun _ => "h") "k")) =
        some ([0, 2], some (.setDisabled 1 true), some ⟨1, "site", .ingest, none⟩) := by
      decide +kernel
    obtain ⟨s, hs, heq⟩ := Option.map_eq_some_iff.mp hfacts
    simp only [Prod.mk.injEq] at heq
    obtain ⟨hreturns, hlog, hvalid⟩ := heq
    exact ⟨s, hs, hreturns, hlog, hvalid⟩

end KeyStore

end WireTap.Gateway
