import Mathlib.Data.List.Basic
import WireTap.Lib.History
import WireTap.Gateway.Running

/-!
# When `cancel` finds a running query

The registry is keyed by the id alone: a query that registers takes the place of another under its
id, and the task that unregisters a query removes whichever token is there.  `run_finds_iff`: in a
run, every query that is running and not cancelled can be found in every state, exactly if no query
registers or unregisters an id under which another such query is, and no signal of a query that
still runs fails.  Nothing is left behind, in any run: the token that is there is of a query whose
guard has still to unregister it.
-/

namespace WireTap.Gateway

/-- It is running, and nobody has cancelled it. -/
def RunningQuery.Live (query : RunningQuery) : Prop :=
  query.phase = .running ∧ query.cancelled = false

namespace QueryRegistry

/-- `cancel` finds the token of every query that is running and not cancelled. -/
def Finds (s : QueryRegistry) : Prop :=
  ∀ (q : Nat) (query : RunningQuery), s.queries[q]? = some query → query.Live →
    s.token query.id = some q

/-- No other query under its id is running and not cancelled. -/
def Alone (s : QueryRegistry) (q : Nat) : Prop :=
  ∀ query ∈ s.queries[q]?, ∀ (q' : Nat) (query' : RunningQuery), s.queries[q']? = some query' →
    q' ≠ q → query'.id = query.id → ¬query'.Live

/-- An id is registered or unregistered while no other query under it can be cancelled, and a signal
fails only if its query is over. -/
def Apart (s : QueryRegistry) : QueryEvent → Prop
  | .register q | .unregister q => s.Alone q
  | .signal k false =>
    match s.cancels[k]? with
    | some (.signalling q) => ∀ query ∈ s.queries[q]?, query.phase ≠ .running
    | _ => True
  | _ => True

instance (query : RunningQuery) : Decidable query.Live := inferInstanceAs (Decidable (_ ∧ _))

instance (s : QueryRegistry) (q : Nat) : Decidable (s.Alone q) :=
  decidable_of_iff (∀ query ∈ s.queries[q]?, ∀ i : Fin s.queries.length, i.1 ≠ q →
      (s.queries.get i).id = query.id → ¬(s.queries.get i).Live) <| by
    unfold Alone
    refine forall₂_congr fun query _ => ⟨?_, ?_⟩
    · intro h q' query' hq' hne hid
      obtain ⟨hlt, rfl⟩ := List.getElem?_eq_some_iff.mp hq'
      exact h ⟨q', hlt⟩ hne hid
    · intro h i hne hid
      exact h i.1 _ (List.getElem?_eq_getElem i.2) hne hid

instance (s : QueryRegistry) (e : QueryEvent) : Decidable (s.Apart e) := by
  unfold Apart
  split
  · infer_instance
  · infer_instance
  · split <;> infer_instance
  · infer_instance

/-- A token is of a query that has still to be unregistered and that no call of `cancel` has; and
one call at most has it. -/
structure Invariant (s : QueryRegistry) : Prop where
  token : ∀ id q, s.token id = some q → ∃ query, s.queries[q]? = some query ∧ query.id = id ∧
    (query.phase = .running ∨ query.phase = .ended) ∧ query.cancelled = false
  starting : ∀ query ∈ s.queries, query.phase = .starting → query.cancelled = false
  signalling : ∀ (k q : Nat), s.cancels[k]? = some (CancelCall.signalling q) →
    ∃ query : RunningQuery, s.queries[q]? = some query ∧ query.phase ≠ .starting ∧
      query.cancelled = true
  once : ∀ k k' q : Nat, s.cancels[k]? = some (CancelCall.signalling q) →
    s.cancels[k']? = some (CancelCall.signalling q) → k = k'

theorem init_invariant : init.Invariant :=
  ⟨by simp [init, QueryRegistry.token], by simp [init], by simp [init], by simp [init]⟩

theorem init_finds : init.Finds := by
  simp [Finds, init]

/-! ### The tokens and the queries -/

variable {s : QueryRegistry} {q : Nat} {query query' : RunningQuery}

theorem lookup_insert (tokens : List (String × Nat)) (id id' : String) (q : Nat) :
    ((id, q) :: tokens).lookup id' = if id' = id then some q else tokens.lookup id' := by
  by_cases h : id' = id
  · simp [h]
  · have hbeq : (id' == id) = false := by simpa using h
    rw [List.lookup_cons, hbeq, if_neg h]

theorem lookup_without (tokens : List (String × Nat)) (id id' : String) :
    (without tokens id).lookup id' = if id' = id then none else tokens.lookup id' := by
  induction tokens with
  | nil => simp [without]
  | cons entry tokens ih =>
    obtain ⟨key, token⟩ := entry
    by_cases hkey : key = id
    · have hgone : without ((key, token) :: tokens) id = without tokens id := by
        simp [without, hkey]
      rw [hgone, ih, lookup_insert]
      by_cases hid : id' = id <;> simp [hid, hkey]
    · have hkept : without ((key, token) :: tokens) id = (key, token) :: without tokens id := by
        simp [without, hkey]
      rw [hkept, lookup_insert, lookup_insert, ih]
      by_cases hsame : id' = key
      · simp [hsame, hkey]
      · simp [hsame]

/-- A query that registers takes the place of another. -/
theorem lookup_register (tokens : List (String × Nat)) (id id' : String) (q : Nat) :
    ((id, q) :: without tokens id).lookup id' = if id' = id then some q else tokens.lookup id' := by
  rw [lookup_insert, lookup_without]
  by_cases h : id' = id <;> simp [h]

theorem setQuery_self (hq : s.queries[q]? = some query) :
    (s.setQuery q query').queries[q]? = some query' :=
  List.getElem?_set_self (List.getElem?_eq_some_iff.mp hq).1

theorem setQuery_of_ne {q' : Nat} {query₀ : RunningQuery} (hne : q' ≠ q)
    (h : s.queries[q']? = some query₀) : (s.setQuery q query').queries[q']? = some query₀ :=
  (List.getElem?_set_ne (Ne.symm hne)).trans h

/-- The queries after one of them has changed. -/
theorem of_setQuery {q' : Nat} {query₀ : RunningQuery} (hq : s.queries[q]? = some query)
    (h : (s.setQuery q query').queries[q']? = some query₀) :
    q' = q ∧ query₀ = query' ∨ q' ≠ q ∧ s.queries[q']? = some query₀ := by
  by_cases hne : q' = q
  · subst hne
    rw [setQuery_self hq] at h
    exact .inl ⟨rfl, (Option.some.inj h).symm⟩
  · refine .inr ⟨hne, ?_⟩
    rw [← h]
    exact (List.getElem?_set_ne (Ne.symm hne)).symm

theorem mark_eq {cancelled : Bool} (hq : s.queries[q]? = some query) :
    s.mark q cancelled = s.setQuery q { query with cancelled } := by
  simp only [mark, hq]

theorem mem_setQuery (h : query' ∈ (s.setQuery q query).queries) :
    query' ∈ s.queries ∨ query' = query :=
  List.mem_or_eq_of_mem_set h

/-! ### The invariant, step by step -/

/-- A query moves on: the tokens are those that were there and have still their query, or the one of
this query. -/
theorem Invariant.setQuery {tokens : List (String × Nat)} (hs : s.Invariant)
    (hq : s.queries[q]? = some query) (hcancelled : query'.cancelled = query.cancelled)
    (hstarted : query'.phase ≠ .starting)
    (htokens : ∀ id q', tokens.lookup id = some q' →
      q' ≠ q ∧ s.token id = some q' ∨
      q' = q ∧ query'.id = id ∧ (query'.phase = .running ∨ query'.phase = .ended) ∧
        query'.cancelled = false) :
    Invariant { s.setQuery q query' with tokens } := by
  refine ⟨?_, ?_, ?_, hs.once⟩
  · intro id q' htoken
    rcases htokens id q' htoken with ⟨hne, hold⟩ | ⟨rfl, hid, hphase, hnot⟩
    · obtain ⟨query₀, hquery₀, hrest⟩ := hs.token id q' hold
      exact ⟨query₀, setQuery_of_ne hne hquery₀, hrest⟩
    · exact ⟨query', setQuery_self hq, hid, hphase, hnot⟩
  · intro query₀ hmem hstarting
    rcases mem_setQuery hmem with hmem | rfl
    · exact hs.starting query₀ hmem hstarting
    · exact absurd hstarting hstarted
  · intro k q' hk
    obtain ⟨query₀, hquery₀, hphase, hyes⟩ := hs.signalling k q' hk
    by_cases hne : q' = q
    · subst hne
      obtain rfl : query₀ = query := Option.some.inj (hquery₀.symm.trans hq)
      exact ⟨query', setQuery_self hq, hstarted, hcancelled.trans hyes⟩
    · exact ⟨query₀, setQuery_of_ne hne hquery₀, hphase, hyes⟩

theorem Invariant.start (hs : s.Invariant) (id : String) :
    Invariant { s with queries := s.queries ++ [⟨id, .starting, false⟩] } := by
  have hkept : ∀ {q : Nat} {query : RunningQuery}, s.queries[q]? = some query →
      (s.queries ++ [⟨id, .starting, false⟩])[q]? = some query := by
    intro q query hq
    have hlt := (List.getElem?_eq_some_iff.mp hq).1
    rw [List.getElem?_append_left hlt, hq]
  refine ⟨?_, ?_, ?_, hs.once⟩
  · intro id q htoken
    obtain ⟨query, hq, hrest⟩ := hs.token id q htoken
    exact ⟨query, hkept hq, hrest⟩
  · intro query hmem hstarting
    rcases List.mem_append.mp hmem with hmem | hmem
    · exact hs.starting query hmem hstarting
    · rw [List.mem_singleton.mp hmem]
  · intro k q hk
    obtain ⟨query, hq, hrest⟩ := hs.signalling k q hk
    exact ⟨query, hkept hq, hrest⟩

theorem Invariant.register (hs : s.Invariant) (hq : s.queries[q]? = some query)
    (hphase : query.phase = .starting) :
    Invariant { s.setQuery q { query with phase := .running } with
      tokens := (query.id, q) :: without s.tokens query.id } := by
  have hnot : query.cancelled = false := hs.starting query (List.mem_of_getElem? hq) hphase
  refine hs.setQuery hq rfl (by simp) ?_
  intro id q' htoken
  rw [lookup_register] at htoken
  split_ifs at htoken with hid
  · exact .inr ⟨(Option.some.inj htoken).symm, hid.symm, .inl rfl, hnot⟩
  · refine .inl ⟨?_, htoken⟩
    rintro rfl
    obtain ⟨query₀, hquery₀, -, hregistered, -⟩ := hs.token id q' htoken
    obtain rfl : query₀ = query := Option.some.inj (hquery₀.symm.trans hq)
    simp [hphase] at hregistered

theorem Invariant.finish {phase : QueryPhase} (hs : s.Invariant) (hq : s.queries[q]? = some query)
    (hphase : query.phase = .starting ∧ phase = .gone ∨ query.phase = .running ∧ phase = .ended) :
    (s.setQuery q { query with phase }).Invariant := by
  refine hs.setQuery hq rfl (by rcases hphase with ⟨-, rfl⟩ | ⟨-, rfl⟩ <;> simp) ?_
  intro id q' htoken
  by_cases hne : q' = q
  · subst hne
    obtain ⟨query₀, hquery₀, hid, hregistered, hnot⟩ := hs.token id q' htoken
    obtain rfl : query₀ = query := Option.some.inj (hquery₀.symm.trans hq)
    rcases hphase with ⟨hstarting, -⟩ | ⟨-, rfl⟩
    · simp [hstarting] at hregistered
    · exact .inr ⟨rfl, hid, .inr rfl, hnot⟩
  · exact .inl ⟨hne, htoken⟩

theorem Invariant.unregister (hs : s.Invariant) (hq : s.queries[q]? = some query) :
    Invariant { s.setQuery q { query with phase := .gone } with
      tokens := without s.tokens query.id } := by
  refine hs.setQuery hq rfl (by simp) ?_
  intro id q' htoken
  rw [lookup_without] at htoken
  split_ifs at htoken with hid
  refine .inl ⟨?_, htoken⟩
  rintro rfl
  obtain ⟨query₀, hquery₀, hid', -⟩ := hs.token id q' htoken
  obtain rfl : query₀ = query := Option.some.inj (hquery₀.symm.trans hq)
  exact hid hid'.symm

theorem Invariant.cancel {id : String} (hs : s.Invariant) (htoken : s.token id = some q)
    (hq : s.queries[q]? = some query) :
    Invariant { s.setQuery q { query with cancelled := true } with
      tokens := without s.tokens id
      cancels := s.cancels ++ [.signalling q] } := by
  obtain ⟨query₀, hquery₀, hid, hphase, hnot⟩ := hs.token id q htoken
  obtain rfl : query₀ = query := Option.some.inj (hquery₀.symm.trans hq)
  have hstarted : query₀.phase ≠ .starting := by
    rcases hphase with hphase | hphase <;> simp [hphase]
  -- A call that has the token already would have marked the query.
  have hfirst : ∀ k : Nat, s.cancels[k]? ≠ some (CancelCall.signalling q) := by
    intro k hk
    obtain ⟨query₁, hquery₁, -, hyes⟩ := hs.signalling k q hk
    obtain rfl : query₁ = query₀ := Option.some.inj (hquery₁.symm.trans hq)
    simp [hnot] at hyes
  have hcall : ∀ {k q' : Nat}, (s.cancels ++ [.signalling q])[k]? = some (.signalling q') →
      s.cancels[k]? = some (.signalling q') ∨ k = s.cancels.length ∧ q' = q := by
    intro k q' hk
    rw [List.getElem?_append] at hk
    split_ifs at hk with hlt
    · exact .inl hk
    · obtain ⟨hk0, hsame⟩ := List.getElem?_eq_some_iff.mp hk
      simp only [List.length_singleton] at hk0
      refine .inr ⟨by omega, ?_⟩
      have hq' := List.mem_of_getElem? hk
      simpa using hq'
  refine ⟨?_, ?_, ?_, ?_⟩
  · intro id' q' htoken'
    have hrest : id' ≠ id ∧ s.token id' = some q' := by
      change (without s.tokens id).lookup id' = some q' at htoken'
      rw [lookup_without] at htoken'
      split_ifs at htoken' with hid'
      exact ⟨hid', htoken'⟩
    obtain ⟨query₁, hquery₁, hid₁, hrest₁⟩ := hs.token id' q' hrest.2
    have hne : q' ≠ q := by
      rintro rfl
      obtain rfl : query₁ = query₀ := Option.some.inj (hquery₁.symm.trans hq)
      exact hrest.1 (hid₁.symm.trans hid)
    exact ⟨query₁, setQuery_of_ne hne hquery₁, hid₁, hrest₁⟩
  · intro query₁ hmem hstarting
    rcases mem_setQuery hmem with hmem | rfl
    · exact hs.starting query₁ hmem hstarting
    · exact absurd hstarting hstarted
  · intro k q' hk
    rcases hcall hk with hold | ⟨-, rfl⟩
    · obtain ⟨query₁, hquery₁, hrest₁⟩ := hs.signalling k q' hold
      have hne : q' ≠ q := by
        rintro rfl
        exact hfirst k hold
      exact ⟨query₁, setQuery_of_ne hne hquery₁, hrest₁⟩
    · exact ⟨{ query₀ with cancelled := true }, setQuery_self hq, hstarted, rfl⟩
  · intro k k' q' hk hk'
    rcases hcall hk with hk | ⟨rfl, rfl⟩ <;> rcases hcall hk' with hk' | ⟨rfl, hsame⟩
    · exact hs.once k k' q' hk hk'
    · rw [hsame] at hk
      exact absurd hk (hfirst k)
    · exact absurd hk' (hfirst k')
    · rfl

/-- The call that has the token is over. -/
theorem Invariant.signalled {k : Nat} {ok : Bool} (hs : s.Invariant) :
    Invariant { s with cancels := s.cancels.set k (.signalled q ok) } := by
  have hcall : ∀ {k' q' : Nat}, (s.cancels.set k (.signalled q ok))[k']? = some (.signalling q') →
      s.cancels[k']? = some (.signalling q') := by
    intro k' q' hk'
    rw [List.getElem?_set] at hk'
    split_ifs at hk' with hkk hlt
    · cases hk'
    · exact hk'
  refine ⟨hs.token, hs.starting, ?_, ?_⟩
  · intro k' q' hk'
    exact hs.signalling k' q' (hcall hk')
  · intro k₁ k₂ q' hk₁ hk₂
    exact hs.once k₁ k₂ q' (hcall hk₁) (hcall hk₂)

/-- The signal failed: the query can be cancelled again, but its token is gone. -/
theorem Invariant.missed {k : Nat} (hs : s.Invariant)
    (hk : s.cancels[k]? = some (CancelCall.signalling q)) (hq : s.queries[q]? = some query) :
    Invariant { s.setQuery q { query with cancelled := false } with
      cancels := s.cancels.set k (.signalled q false) } := by
  obtain ⟨query₀, hquery₀, hstarted, hyes⟩ := hs.signalling k q hk
  obtain rfl : query₀ = query := Option.some.inj (hquery₀.symm.trans hq)
  have hcall : ∀ {k' q' : Nat}, (s.cancels.set k (.signalled q false))[k']? =
      some (CancelCall.signalling q') → k' ≠ k ∧ s.cancels[k']? = some (.signalling q') := by
    intro k' q' hk'
    rw [List.getElem?_set] at hk'
    split_ifs at hk' with hkk hlt
    · cases hk'
    · exact ⟨Ne.symm hkk, hk'⟩
  refine ⟨?_, ?_, ?_, ?_⟩
  · intro id q' htoken
    obtain ⟨query₁, hquery₁, hid₁, hphase₁, hnot₁⟩ := hs.token id q' htoken
    have hne : q' ≠ q := by
      rintro rfl
      obtain rfl : query₁ = query₀ := Option.some.inj (hquery₁.symm.trans hq)
      simp [hnot₁] at hyes
    exact ⟨query₁, setQuery_of_ne hne hquery₁, hid₁, hphase₁, hnot₁⟩
  · intro query₁ hmem hstarting
    rcases mem_setQuery hmem with hmem | rfl
    · exact hs.starting query₁ hmem hstarting
    · rfl
  · intro k' q' hk'
    obtain ⟨hkk, hold⟩ := hcall hk'
    obtain ⟨query₁, hquery₁, hrest₁⟩ := hs.signalling k' q' hold
    have hne : q' ≠ q := by
      rintro rfl
      exact hkk (hs.once k' k q' hold hk)
    exact ⟨query₁, setQuery_of_ne hne hquery₁, hrest₁⟩
  · intro k₁ k₂ q' hk₁ hk₂
    exact hs.once k₁ k₂ q' (hcall hk₁).2 (hcall hk₂).2

/-! ### What each step does to what can be found -/

theorem Finds.start (hf : s.Finds) (id : String) :
    Finds { s with queries := s.queries ++ [⟨id, .starting, false⟩] } := by
  intro q query hq hlive
  change (s.queries ++ [_])[q]? = some query at hq
  rw [List.getElem?_append] at hq
  split_ifs at hq with hlt
  · exact hf q query hq hlive
  · have hmem := List.mem_of_getElem? hq
    rw [List.mem_singleton.mp hmem] at hlive
    cases hlive.1

theorem finds_register (hf : s.Finds) (hq : s.queries[q]? = some query) :
    Finds { s.setQuery q { query with phase := .running } with
      tokens := (query.id, q) :: without s.tokens query.id } ↔ s.Alone q := by
  constructor
  · intro h query₀ hquery₀ q' query' hq' hne hid hlive
    obtain rfl : query₀ = query := Option.some.inj (hquery₀.symm.trans hq)
    have htoken := h q' query' (setQuery_of_ne hne hq') hlive
    change ((query₀.id, q) :: without s.tokens query₀.id).lookup query'.id = some q' at htoken
    rw [lookup_register, if_pos hid] at htoken
    exact hne (Option.some.inj htoken).symm
  · intro halone q' query' hq' hlive
    show ((query.id, q) :: without s.tokens query.id).lookup query'.id = some q'
    rw [lookup_register]
    rcases of_setQuery hq hq' with ⟨rfl, rfl⟩ | ⟨hne, hold⟩
    · exact if_pos rfl
    · have hid : query'.id ≠ query.id := fun hid => halone query hq q' query' hold hne hid hlive
      rw [if_neg hid]
      exact hf q' query' hold hlive

theorem finds_unregister (hf : s.Finds) (hq : s.queries[q]? = some query) :
    Finds { s.setQuery q { query with phase := .gone } with
      tokens := without s.tokens query.id } ↔ s.Alone q := by
  constructor
  · intro h query₀ hquery₀ q' query' hq' hne hid hlive
    obtain rfl : query₀ = query := Option.some.inj (hquery₀.symm.trans hq)
    have htoken := h q' query' (setQuery_of_ne hne hq') hlive
    change (without s.tokens query₀.id).lookup query'.id = some q' at htoken
    rw [lookup_without, if_pos hid] at htoken
    cases htoken
  · intro halone q' query' hq' hlive
    show (without s.tokens query.id).lookup query'.id = some q'
    rw [lookup_without]
    rcases of_setQuery hq hq' with ⟨rfl, rfl⟩ | ⟨hne, hold⟩
    · cases hlive.1
    · have hid : query'.id ≠ query.id := fun hid => halone query hq q' query' hold hne hid hlive
      rw [if_neg hid]
      exact hf q' query' hold hlive

/-- A query that ends, or that is marked, need not be found. -/
theorem Finds.setQuery (hf : s.Finds) (hq : s.queries[q]? = some query) (hdead : ¬query'.Live) :
    (s.setQuery q query').Finds := by
  intro q' query₀ hq' hlive
  rcases of_setQuery hq hq' with ⟨rfl, rfl⟩ | ⟨hne, hold⟩
  · exact absurd hlive hdead
  · exact hf q' query₀ hold hlive

theorem Finds.cancel {id : String} {cancels : List CancelCall} (hf : s.Finds)
    (htoken : s.token id = some q) (hq : s.queries[q]? = some query) :
    Finds { s.setQuery q { query with cancelled := true } with
      tokens := without s.tokens id, cancels } := by
  intro q' query₀ hq' hlive
  rcases of_setQuery hq hq' with ⟨rfl, rfl⟩ | ⟨hne, hold⟩
  · cases hlive.2
  · have hfound := hf q' query₀ hold hlive
    have hid : query₀.id ≠ id := by
      rintro rfl
      exact hne (Option.some.inj (hfound.symm.trans htoken))
    show (without s.tokens id).lookup query₀.id = some q'
    rw [lookup_without, if_neg hid]
    exact hfound

theorem finds_missed {k : Nat} (hs : s.Invariant) (hf : s.Finds)
    (hk : s.cancels[k]? = some (CancelCall.signalling q)) (hq : s.queries[q]? = some query) :
    Finds { s.setQuery q { query with cancelled := false } with
      cancels := s.cancels.set k (.signalled q false) } ↔ query.phase ≠ .running := by
  obtain ⟨query₀, hquery₀, -, hyes⟩ := hs.signalling k q hk
  obtain rfl : query₀ = query := Option.some.inj (hquery₀.symm.trans hq)
  constructor
  · intro h hrunning
    have htoken := h q _ (setQuery_self hq) ⟨hrunning, rfl⟩
    -- The token of a marked query is not in the registry.
    obtain ⟨query₁, hquery₁, -, -, hnot⟩ := hs.token query₀.id q htoken
    obtain rfl : query₁ = query₀ := Option.some.inj (hquery₁.symm.trans hq)
    simp [hnot] at hyes
  · intro hover
    exact hf.setQuery hq fun hlive => hover hlive.1

/-! ### Runs -/

variable {s' : QueryRegistry} {e : QueryEvent}

/-- A step keeps the invariant, and what can be found exactly if it meets the condition. -/
theorem step_spec (hs : s.Invariant) (h : s.step e = some s') :
    s'.Invariant ∧ (s.Finds → (s'.Finds ↔ s.Apart e)) := by
  cases e with
  | start id =>
    obtain rfl := Option.some.inj h
    exact ⟨hs.start id, fun hf => iff_of_true (hf.start id) trivial⟩
  | register q =>
    simp only [step] at h
    split at h
    · rename_i query hq
      obtain ⟨hphase, h⟩ := of_guard h
      obtain rfl := Option.some.inj h
      exact ⟨hs.register hq hphase, fun hf => finds_register hf hq⟩
    · cases h
  | finish q =>
    simp only [step] at h
    split at h
    · rename_i query hq
      split at h
      · rename_i hphase
        obtain rfl := Option.some.inj h
        refine ⟨hs.finish hq (.inl ⟨hphase, rfl⟩), fun hf => iff_of_true ?_ trivial⟩
        exact hf.setQuery hq fun hlive => by cases hlive.1
      · rename_i hphase
        obtain rfl := Option.some.inj h
        refine ⟨hs.finish hq (.inr ⟨hphase, rfl⟩), fun hf => iff_of_true ?_ trivial⟩
        exact hf.setQuery hq fun hlive => by cases hlive.1
      · cases h
    · cases h
  | unregister q =>
    simp only [step] at h
    split at h
    · rename_i query hq
      obtain ⟨-, h⟩ := of_guard h
      obtain rfl := Option.some.inj h
      exact ⟨hs.unregister hq, fun hf => finds_unregister hf hq⟩
    · cases h
  | cancel id =>
    simp only [step] at h
    split at h
    · rename_i q htoken
      obtain ⟨query, hq, -⟩ := hs.token id q htoken
      rw [mark_eq hq] at h
      obtain rfl := Option.some.inj h
      exact ⟨hs.cancel htoken hq, fun hf => iff_of_true (hf.cancel htoken hq) trivial⟩
    · obtain rfl := Option.some.inj h
      -- An unknown id leaves a call that signals nothing.
      have hcall : ∀ {k q : Nat}, (s.cancels ++ [.unknown])[k]? = some (.signalling q) →
          s.cancels[k]? = some (CancelCall.signalling q) := by
        intro k q hk
        rw [List.getElem?_append] at hk
        split_ifs at hk
        · exact hk
        · have hmem := List.mem_of_getElem? hk
          simp at hmem
      refine ⟨⟨hs.token, hs.starting, ?_, ?_⟩, fun hf => iff_of_true hf trivial⟩
      · exact fun k q hk => hs.signalling k q (hcall hk)
      · exact fun k k' q hk hk' => hs.once k k' q (hcall hk) (hcall hk')
  | signal k ok =>
    simp only [step] at h
    split at h
    · rename_i q hk
      obtain ⟨query, hq, -⟩ := hs.signalling k q hk
      cases ok with
      | true =>
        obtain rfl := Option.some.inj h
        exact ⟨hs.signalled, fun hf => iff_of_true hf trivial⟩
      | false =>
        -- The signal failed: the query runs on, and its token is gone.
        rw [if_neg Bool.false_ne_true, mark_eq hq] at h
        obtain rfl := Option.some.inj h
        refine ⟨hs.missed hk hq, fun hf => (finds_missed hs hf hk hq).trans ?_⟩
        simp [Apart, hk, hq]
    · cases h

end QueryRegistry

open QueryRegistry in
/-- In every run, each query that is running and not cancelled can be found in each state exactly if
no step registers or unregisters an id under which another such query is, and no signal of a running
query fails; and an id has no token once every query under it has been unregistered. -/
theorem run_finds_iff {es : List QueryEvent} {s : QueryRegistry} (hrun : runs step init es = some s) :
    ((∀ t ∈ states step init es, t.Finds) ↔ Along step Apart init es) ∧
      ∀ id, (∀ query ∈ s.queries, query.id = id → query.phase = .starting ∨ query.phase = .gone) →
        s.token id = none := by
  have hstep : ∀ {s e t}, Invariant s → step s e = some t → Invariant t :=
    fun hs h => (step_spec hs h).1
  refine ⟨along_iff_states hstep (fun hs hf h => (step_spec hs h).2 hf) init_invariant init_finds
    hrun, ?_⟩
  intro id hover
  have hs : s.Invariant := invariant_of_runs hstep init_invariant hrun
  cases htoken : s.token id with
  | none => rfl
  | some q =>
    obtain ⟨query, hq, hid, hphase, -⟩ := hs.token id q htoken
    rcases hover query (List.mem_of_getElem? hq) hid with hgone | hgone <;> simp [hgone] at hphase

/-- Two queries under one id, one after the other, and a call of `cancel` for each; the first ended
before it was signalled. -/
def queriesInTurn : List QueryEvent :=
  [.start "q", .register 0, .cancel "q", .finish 0, .signal 0 false, .unregister 0,
    .start "q", .register 1, .cancel "q", .signal 1 true, .finish 1, .unregister 1]

open QueryRegistry in
theorem run_finds_in_turn :
    ∃ s, runs step init queriesInTurn = some s ∧ Along step Apart init queriesInTurn ∧
      (∀ t ∈ states step init queriesInTurn, t.Finds) ∧ s.token "q" = none := by
  obtain ⟨s, hrun⟩ : ∃ s, runs step init queriesInTurn = some s :=
    Option.isSome_iff_exists.mp (by decide +kernel)
  have hapart : Along step Apart init queriesInTurn := by decide +kernel
  have hover : ∀ t ∈ runs step init queriesInTurn, ∀ query ∈ t.queries, query.id = "q" →
      query.phase = .starting ∨ query.phase = .gone := by decide +kernel
  obtain ⟨hfinds, hleft⟩ := run_finds_iff hrun
  exact ⟨s, hrun, hapart, hfinds.mpr hapart, hleft "q" (hover s hrun)⟩

/-- A query ends, another registers under its id, and only then the task of the first's guard
runs. -/
def lateUnregister : List QueryEvent :=
  [.start "q", .register 0, .finish 0, .start "q", .register 1, .unregister 0]

open QueryRegistry in
/-- `cancel` then does not know the id of the query that is running. -/
theorem running_query_unknown :
    ∃ s, runs step init lateUnregister = some s ∧ s.queries[1]? = some ⟨"q", .running, false⟩ ∧
      s.token "q" = none ∧ (s.step (.cancel "q")).map (·.cancels) = some [.unknown] ∧ ¬s.Finds := by
  obtain ⟨s, hrun⟩ : ∃ s, runs step init lateUnregister = some s :=
    Option.isSome_iff_exists.mp (by decide +kernel)
  have hall : ∀ t ∈ runs step init lateUnregister,
      t.queries[1]? = some ⟨"q", .running, false⟩ ∧ t.token "q" = none ∧
        (t.step (.cancel "q")).map (·.cancels) = some [.unknown] := by decide +kernel
  obtain ⟨hquery, htoken, hcancel⟩ := hall s hrun
  refine ⟨s, hrun, hquery, htoken, hcancel, ?_⟩
  intro hfinds
  have hfound := hfinds 1 _ hquery ⟨rfl, rfl⟩
  rw [htoken] at hfound
  cases hfound

end WireTap.Gateway
