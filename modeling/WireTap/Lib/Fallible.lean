import Mathlib.Data.List.Basic

/-!
# Lists of computations that may fail

What is known of the parts where a whole got through.  In `Except` an element that fails, fails the
whole (`bind_ok`, `mem_iff_of_mapM_eq_ok`); in `Option` the whole is there where every element is
(`mapM_eq_none_iff`, `exists_foldlM_eq_some`).
-/

namespace WireTap

/-! ### `Except` -/

theorem bind_ok {ε α β : Type} {x : Except ε α} {f : α → Except ε β} {b : β}
    (h : x >>= f = .ok b) : ∃ a, x = .ok a ∧ f a = .ok b := by
  cases x with
  | error e => cases h
  | ok a => exact ⟨a, rfl, h⟩

theorem mem_iff_of_mapM_eq_ok {ε α β : Type} {f : α → Except ε β} {xs : List α} :
    ∀ {ys : List β}, xs.mapM f = .ok ys → ∀ {y}, y ∈ ys ↔ ∃ x ∈ xs, f x = .ok y := by
  induction xs with
  | nil =>
    intro ys h y
    obtain rfl : [] = ys := by simpa [pure, Except.pure] using h
    simp
  | cons x xs ih =>
    intro ys h y
    rw [List.mapM_cons] at h
    obtain ⟨z, hx, h⟩ := bind_ok h
    obtain ⟨zs, hxs, h⟩ := bind_ok h
    obtain rfl : z :: zs = ys := Except.ok.inj h
    simp [ih hxs, hx, eq_comm]

theorem exists_mapM_eq_ok {ε α β : Type} {f : α → Except ε β} {xs : List α}
    (h : ∀ x ∈ xs, ∃ y, f x = .ok y) : ∃ ys, xs.mapM f = .ok ys := by
  induction xs with
  | nil => exact ⟨[], rfl⟩
  | cons x xs ih =>
    obtain ⟨y, hy⟩ := h x List.mem_cons_self
    obtain ⟨ys, hys⟩ := ih fun x hx => h x (List.mem_cons_of_mem _ hx)
    exact ⟨y :: ys, by simp [List.mapM_cons, hy, hys, bind, Except.bind, pure, Except.pure]⟩

theorem mapM_map_eq_ok {ε α β γ : Type} {f : β → Except ε γ} {g : α → β} {k : α → γ}
    (h : ∀ x, f (g x) = .ok (k x)) (xs : List α) : (xs.map g).mapM f = .ok (xs.map k) := by
  induction xs with
  | nil => rfl
  | cons x xs ih =>
    rw [List.map_cons, List.mapM_cons, h, ih]
    rfl

theorem eq_map_of_mapM_eq_ok {ε α β : Type} {f : α → Except ε β} {g : α → β}
    (h : ∀ x y, f x = .ok y → y = g x) {xs : List α} :
    ∀ {ys : List β}, xs.mapM f = .ok ys → ys = xs.map g := by
  induction xs with
  | nil =>
    intro ys hys
    exact (Except.ok.inj hys).symm
  | cons x xs ih =>
    intro ys hys
    rw [List.mapM_cons] at hys
    obtain ⟨y, hy, hys⟩ := bind_ok hys
    obtain ⟨ys', hys', hys⟩ := bind_ok hys
    rw [← Except.ok.inj hys, List.map_cons, ← h x y hy, ← ih hys']

theorem eq_ok_of_mapError {ε ε' α : Type} {f : ε → ε'} {x : Except ε α} {a : α}
    (h : x.mapError f = .ok a) : x = .ok a := by
  cases x with
  | error e => cases h
  | ok b => rw [Except.ok.inj h]

/-- Without the reasons, the same. -/
theorem toOption_mapM {ε α β : Type} (f : α → Except ε β) (xs : List α) :
    (xs.mapM f).toOption = xs.mapM fun x => (f x).toOption := by
  induction xs with
  | nil => rfl
  | cons x xs ih =>
    rw [List.mapM_cons, List.mapM_cons, ← ih]
    cases f x with
    | error e => rfl
    | ok y => cases xs.mapM f <;> rfl

/-! ### `Option` -/

theorem mapM_eq_none_iff {α β : Type} {f : α → Option β} {xs : List α} :
    xs.mapM f = none ↔ ∃ x ∈ xs, f x = none := by
  induction xs with
  | nil => simp
  | cons x xs ih =>
    rw [List.mapM_cons]
    cases hx : f x with
    | none => simp [hx]
    | some y =>
      cases hxs : xs.mapM f with
      | none => simpa [hx, hxs] using ih.mp hxs
      | some ys =>
        have hnone : ¬ ∃ x ∈ xs, f x = none := by
          rw [← ih, hxs]
          simp
        simpa [hx] using hnone

theorem exists_mapM_eq_some {α β : Type} {f : α → Option β} {xs : List α}
    (h : ∀ x ∈ xs, ∃ y, f x = some y) : ∃ ys, xs.mapM f = some ys := by
  apply Option.ne_none_iff_exists'.mp
  rw [ne_eq, mapM_eq_none_iff]
  rintro ⟨x, hx, hnone⟩
  obtain ⟨y, hy⟩ := h x hx
  rw [hy] at hnone
  cases hnone

/-- A fold whose every step can be taken. -/
theorem exists_foldlM_eq_some {α β : Type} {f : β → α → Option β} {xs : List α}
    (h : ∀ x ∈ xs, ∀ b, ∃ b', f b x = some b') : ∀ b, ∃ b', xs.foldlM f b = some b' := by
  induction xs with
  | nil => exact fun b => ⟨b, rfl⟩
  | cons x xs ih =>
    intro b
    obtain ⟨b', hb'⟩ := h x List.mem_cons_self b
    obtain ⟨b'', hb''⟩ := ih (fun x hx => h x (List.mem_cons_of_mem _ hx)) b'
    exact ⟨b'', by simp [List.foldlM_cons, hb', hb'']⟩

theorem exists_allM_eq_some {α : Type} {f : α → Option Bool} {xs : List α}
    (h : ∀ x ∈ xs, ∃ b, f x = some b) : ∃ b, xs.allM f = some b := by
  induction xs with
  | nil => exact ⟨true, rfl⟩
  | cons x xs ih =>
    obtain ⟨b, hb⟩ := h x List.mem_cons_self
    obtain ⟨b', hb'⟩ := ih fun x hx => h x (List.mem_cons_of_mem _ hx)
    cases b with
    | false => exact ⟨false, by simp [List.allM, hb]⟩
    | true => exact ⟨b', by simp [List.allM, hb, hb']⟩

theorem exists_filterM_eq_some {α : Type} {f : α → Option Bool} {xs : List α}
    (h : ∀ x ∈ xs, ∃ b, f x = some b) : ∃ ys, xs.filterM f = some ys := by
  -- `filterM` gathers what it keeps in reverse
  have haux : ∀ acc, ∃ ys, xs.filterAuxM f acc = some ys := by
    induction xs with
    | nil => exact fun acc => ⟨acc, rfl⟩
    | cons x xs ih =>
      intro acc
      obtain ⟨b, hb⟩ := h x List.mem_cons_self
      obtain ⟨ys, hys⟩ := ih (fun x hx => h x (List.mem_cons_of_mem _ hx)) (cond b (x :: acc) acc)
      exact ⟨ys, by simp [List.filterAuxM, hb, hys]⟩
  obtain ⟨ys, hys⟩ := haux []
  exact ⟨ys.reverse, by simp [List.filterM, hys]⟩

/-- What is read of every row, where every row can be read. -/
theorem map_eq_of_mapM_eq_some {α β : Type} {f : α → Option β} {xs : List α} :
    ∀ {ys : List β}, xs.mapM f = some ys → xs.map f = ys.map some := by
  induction xs with
  | nil =>
    intro ys h
    have hys : [] = ys := Option.some.inj h
    rw [← hys]
    rfl
  | cons x xs ih =>
    intro ys h
    rw [List.mapM_cons] at h
    obtain ⟨y, hy, h⟩ := Option.bind_eq_some_iff.mp h
    obtain ⟨ys', hys', h⟩ := Option.bind_eq_some_iff.mp h
    have hys : y :: ys' = ys := Option.some.inj h
    rw [← hys, List.map_cons, List.map_cons, hy, ih hys']

/-- Where every row can be read, the rows that can are all of them. -/
theorem filterMap_eq_of_mapM_eq_some {α β : Type} {f : α → Option β} {xs : List α} {ys : List β}
    (h : xs.mapM f = some ys) : xs.filterMap f = ys := by
  calc
    xs.filterMap f = (xs.map f).filterMap id := by rw [List.filterMap_map]; rfl
    _ = (ys.map some).filterMap id := by rw [map_eq_of_mapM_eq_some h]
    _ = ys := by rw [List.filterMap_map]; exact List.filterMap_some

theorem allM_eq_some {α : Type} {f : α → Option Bool} {g : α → Bool} {xs : List α}
    (h : ∀ x ∈ xs, f x = some (g x)) : xs.allM f = some (xs.all g) := by
  induction xs with
  | nil => rfl
  | cons x xs ih =>
    have hx := h x List.mem_cons_self
    have hxs := ih fun x hx => h x (List.mem_cons_of_mem _ hx)
    cases hg : g x <;> simp [List.allM, hx, hxs, hg]

theorem filterM_eq_some {α : Type} {f : α → Option Bool} {g : α → Bool} {xs : List α}
    (h : ∀ x ∈ xs, f x = some (g x)) : xs.filterM f = some (xs.filter g) := by
  -- `filterM` gathers what it keeps in reverse
  have haux : ∀ acc, xs.filterAuxM f acc = some ((xs.filter g).reverse ++ acc) := by
    induction xs with
    | nil =>
      intro acc
      rfl
    | cons x xs ih =>
      intro acc
      have hx := h x List.mem_cons_self
      have hxs := ih fun x hx => h x (List.mem_cons_of_mem _ hx)
      cases hg : g x <;> simp [List.filterAuxM, hx, hxs, hg]
  simp [List.filterM, haux]

end WireTap
