import Mathlib.Data.List.Basic
import Mathlib.Tactic.Common

/-!
# Directory entries and links

A directory entry is a file or a link to another entry.  `trail nodes n e` follows the links from `e`
through at most `n` entries: the entries passed, and the file at the end.

A trail sees only the entries on it (`trail_congr`), ends at one file whatever the limit
(`trail_unique`), never comes back to an entry (`not_mem_trail_of_link`), and is cut by the removal of
any entry on it (`trail_cut`).
-/

namespace WireTap

/-- What a directory entry is. -/
inductive Node (E F : Type) where
  | file (f : F)
  | link (target : E)

variable {E F : Type} {nodes nodes' : E → Option (Node E F)}

/-- The entries passed from `e` on, and the file they end at; none if they do not end there within
`n` entries, or lead nowhere. -/
def trail (nodes : E → Option (Node E F)) : Nat → E → Option (List E × F)
  | 0, _ => none
  | n + 1, e =>
    match nodes e with
    | none => none
    | some (.file f) => some ([e], f)
    | some (.link target) => (trail nodes n target).map fun p => (e :: p.1, p.2)

theorem trail_of_file {n : Nat} {e : E} {f : F} (h : nodes e = some (.file f)) :
    trail nodes (n + 1) e = some ([e], f) := by
  rw [trail, h]

theorem trail_of_link {n : Nat} {e target : E} (h : nodes e = some (.link target)) :
    trail nodes (n + 1) e = (trail nodes n target).map fun p => (e :: p.1, p.2) := by
  rw [trail, h]

theorem trail_of_none {e : E} (h : nodes e = none) (n : Nat) : trail nodes n e = none := by
  cases n with
  | zero => rfl
  | succ n => rw [trail, h]

/-- A trail is one entry that is a file, or a link in front of a trail. -/
theorem trail_cases {n : Nat} {e : E} {es : List E} {f : F} (h : trail nodes n e = some (es, f)) :
    ∃ m, n = m + 1 ∧ ((nodes e = some (.file f) ∧ es = [e]) ∨
      ∃ target rest, nodes e = some (.link target) ∧ trail nodes m target = some (rest, f) ∧
        es = e :: rest) := by
  cases n with
  | zero => cases h
  | succ m =>
    refine ⟨m, rfl, ?_⟩
    cases hnode : nodes e with
    | none => rw [trail_of_none hnode] at h; cases h
    | some node =>
      cases node with
      | file g =>
        rw [trail_of_file hnode, Option.some.injEq, Prod.mk.injEq] at h
        obtain ⟨rfl, rfl⟩ := h
        exact .inl ⟨rfl, rfl⟩
      | link target =>
        rw [trail_of_link hnode, Option.map_eq_some_iff] at h
        obtain ⟨⟨rest, g⟩, hrest, heq⟩ := h
        rw [Prod.mk.injEq] at heq
        obtain ⟨rfl, rfl⟩ := heq
        exact .inr ⟨target, rest, rfl, hrest, rfl⟩

/-- Only the entries on a trail matter to it. -/
theorem trail_congr {n : Nat} {e : E} {es : List E} {f : F} (h : trail nodes n e = some (es, f))
    (hagree : ∀ x ∈ es, nodes' x = nodes x) : trail nodes' n e = some (es, f) := by
  induction n generalizing e es with
  | zero => cases h
  | succ n ih =>
    obtain ⟨m, hm, ⟨hfile, rfl⟩ | ⟨target, rest, hlink, hrest, rfl⟩⟩ := trail_cases h
    · have hsame := hagree e List.mem_cons_self
      rw [hfile] at hsame
      exact trail_of_file hsame
    · obtain rfl : n = m := Nat.succ.inj hm
      have hsame := hagree e List.mem_cons_self
      rw [hlink] at hsame
      rw [trail_of_link hsame, ih hrest fun x hx => hagree x (List.mem_cons_of_mem e hx)]
      rfl

/-- A trail that ends does so at one file, by one way. -/
theorem trail_unique {n m : Nat} {e : E} {es es' : List E} {f f' : F}
    (h : trail nodes n e = some (es, f)) (h' : trail nodes m e = some (es', f')) :
    es = es' ∧ f = f' := by
  induction n generalizing e es es' m with
  | zero => cases h
  | succ n ih =>
    obtain ⟨k, hk, ⟨hfile, rfl⟩ | ⟨target, rest, hlink, hrest, rfl⟩⟩ := trail_cases h
    · obtain ⟨k', -, ⟨hfile', rfl⟩ | ⟨target', rest', hlink', -, -⟩⟩ := trail_cases h'
      · rw [hfile, Option.some.injEq, Node.file.injEq] at hfile'
        exact ⟨rfl, hfile'⟩
      · rw [hfile] at hlink'
        cases hlink'
    · obtain rfl : n = k := Nat.succ.inj hk
      obtain ⟨k', -, ⟨hfile', -⟩ | ⟨target', rest', hlink', hrest', rfl⟩⟩ := trail_cases h'
      · rw [hlink] at hfile'
        cases hfile'
      · rw [hlink, Option.some.injEq, Node.link.injEq] at hlink'
        subst hlink'
        obtain ⟨rfl, rfl⟩ := ih hrest hrest'
        exact ⟨rfl, rfl⟩

/-- From an entry on a trail, the rest of the trail. -/
theorem trail_of_mem {n : Nat} {e x : E} {es : List E} {f : F}
    (h : trail nodes n e = some (es, f)) (hx : x ∈ es) :
    ∃ m rest, trail nodes m x = some (rest, f) ∧ rest.length ≤ es.length := by
  induction n generalizing e es with
  | zero => cases h
  | succ n ih =>
    by_cases hne : x = e
    · rw [hne]
      exact ⟨n + 1, es, h, Nat.le_refl _⟩
    · obtain ⟨m, hm, ⟨hfile, rfl⟩ | ⟨target, rest, hlink, hrest, rfl⟩⟩ := trail_cases h
      · exact absurd (List.mem_singleton.mp hx) hne
      · obtain rfl : n = m := Nat.succ.inj hm
        rcases List.mem_cons.mp hx with rfl | hx
        · exact absurd rfl hne
        · obtain ⟨k, rest', htrail, hlen⟩ := ih hrest hx
          exact ⟨k, rest', htrail, by rw [List.length_cons]; omega⟩

/-- A trail does not come back to the link it started from. -/
theorem not_mem_trail_of_link {n : Nat} {e target : E} {rest : List E} {f : F}
    (hlink : nodes e = some (.link target)) (h : trail nodes n target = some (rest, f)) :
    e ∉ rest := by
  intro he
  obtain ⟨m, rest', htrail, hlen⟩ := trail_of_mem h he
  have hwhole : trail nodes (n + 1) e = some (e :: rest, f) := by
    rw [trail_of_link hlink, h]
    rfl
  obtain ⟨rfl, -⟩ := trail_unique hwhole htrail
  rw [List.length_cons] at hlen
  omega

/-- With an entry on it gone, a trail leads nowhere. -/
theorem trail_cut {n : Nat} {e x : E} {es : List E} {f : F} (h : trail nodes n e = some (es, f))
    (hx : x ∈ es) (hgone : nodes' x = none) (hagree : ∀ y, y ≠ x → nodes' y = nodes y) (m : Nat) :
    trail nodes' m e = none := by
  induction n generalizing e es m with
  | zero => cases h
  | succ n ih =>
    by_cases hne : e = x
    · rw [hne]
      exact trail_of_none hgone m
    · obtain ⟨k, hk, ⟨hfile, rfl⟩ | ⟨target, rest, hlink, hrest, rfl⟩⟩ := trail_cases h
      · exact absurd (List.mem_singleton.mp hx).symm hne
      · obtain rfl : n = k := Nat.succ.inj hk
        have hsame := hagree e hne
        rw [hlink] at hsame
        cases m with
        | zero => rfl
        | succ m =>
          rw [trail_of_link hsame, ih hrest ((List.mem_cons.mp hx).resolve_left (Ne.symm hne)) m]
          rfl

end WireTap
