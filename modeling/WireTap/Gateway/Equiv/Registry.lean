import WireTap.Lib.Streak
import WireTap.Gateway.Registry

/-!
# The list of daemons tells what they last reported

Each table is told by its calls (`Tells`): a device is as the last `HELLO` that named it, an
assignment as the first of those that gave the interface, without a break, the catalogue it has, and
what is active as the last `CATALOGUE_STATUS` says, since the first of those that, without a break,
said the same catalogue.  `step_devices` to `step_blobs` say once what a call does to each.

`run_lists` is about the list: each daemon stands in it once, in order, with each of its devices
once.  A device is there if a `HELLO` named it or it is assigned a catalogue, and it is shown as the
calls told.
-/

namespace WireTap.Gateway

open Lib (Streak)

/-! ### What a call says of a device -/

namespace RegistryCall

/-- The row of a `HELLO` that names the device. -/
def naming (k : DeviceKey) : RegistryCall → Option DaemonDeviceRow
  | .recordHello daemonId database devices now =>
    if daemonId = k.1 ∧ (devices.map Device.name).Nodup then
      (devices.find? fun d => d.name = k.2).map fun d => ⟨d.bus, database, now⟩
    else none
  | _ => none

/-- An assignment of the interface, or that it is cleared. -/
def assigning (k : DeviceKey) : RegistryCall → Option (Option CatalogAssignmentRow)
  | .assign daemonId interface sha _ assignedBy now =>
    if (daemonId, interface) = k then some (some ⟨sha, now, some assignedBy⟩) else none
  | .clear daemonId interface => if (daemonId, interface) = k then some none else none
  | _ => none

/-- What a status says of the interface, and when; nothing, of one its `HELLO` named and it does not
report. -/
def reporting (k : DeviceKey) : RegistryCall → Option (Option ActiveRow × Int)
  | .recordStatus daemonId devices status now =>
    let rows := activeRows devices status
    if daemonId = k.1 ∧ (rows.map ActiveRow.interface).Nodup then
      match rows.find? fun r => r.interface = k.2 with
      | some r => some (some r, now)
      | none => if k.2 ∈ devices.map Device.name then some (none, now) else none
    else none
  | _ => none

/-- The blob that comes with an assignment. -/
def storing (sha : Sha) : RegistryCall → Option CatalogBlobRow
  | .assign _ _ sha' blob _ _ => if sha' = sha then some blob else none
  | _ => none

end RegistryCall

/-- The catalogue of a row of a status. -/
def ActiveRow.catalogue (r : ActiveRow) : String × Option Sha := (r.source, r.blobSha)

/-- What the assignments of an interface come to. -/
inductive AssignedSince (told : List (Option CatalogAssignmentRow)) :
    Option CatalogAssignmentRow → Prop where
  | unassigned : (∀ x ∈ told.getLast?, x = none) → AssignedSince told none
  | assigned (first last : CatalogAssignmentRow) :
    Streak (Option.map CatalogAssignmentRow.blobSha) told (some first) (some last) →
    AssignedSince told (some first)

/-- What the statuses of an interface come to. -/
inductive ActiveSince (told : List (Option ActiveRow × Int)) : Option DaemonActiveRow → Prop where
  | unreported : (∀ x ∈ told.getLast?, x.1 = none) → ActiveSince told none
  | reported (first last : Option ActiveRow × Int) (r : ActiveRow) :
    Streak (fun x => x.1.map ActiveRow.catalogue) told first last → last.1 = some r →
    ActiveSince told
      (some ⟨r.source, r.blobSha, r.refused.map (·.1), r.refused.map (·.2), first.2⟩)

namespace Registry

variable {s : Registry} {calls : List RegistryCall}

/-! ### What a call does -/

theorem keys_nodup_iff {β : Type} (daemonId : String) (rows : List β) (name : β → String) :
    ((rows.map fun r => ((daemonId, name r), r)).map (·.1)).Nodup ↔ (rows.map name).Nodup := by
  have hmap : (rows.map fun r => ((daemonId, name r), r)).map (·.1) =
      (rows.map name).map fun i => (daemonId, i) := by
    simp [List.map_map, Function.comp_def]
  rw [hmap]
  exact List.nodup_map_iff fun _ _ h => (Prod.mk.inj h).2

theorem find_keyed {β : Type} (daemonId : String) (rows : List β) (name : β → String)
    (k : DeviceKey) :
    (rows.map fun r => ((daemonId, name r), r)).find? (fun r => r.1 = k) =
      if daemonId = k.1 then (rows.find? fun r => name r = k.2).map fun r => ((daemonId, name r), r)
      else none := by
  rw [List.find?_map]
  split
  · rename_i hd
    congr 2
    funext r
    simp [Prod.ext_iff, hd]
  · rename_i hd
    rw [Option.map_eq_none_iff, List.find?_eq_none]
    intro r _
    simp [Prod.ext_iff, hd]

theorem mem_map_pair {d : String} {is : List String} {k : DeviceKey} :
    k ∈ is.map (fun i => (d, i)) ↔ d = k.1 ∧ k.2 ∈ is := by
  constructor
  · intro h
    obtain ⟨i, hi, rfl⟩ := List.mem_map.mp h
    exact ⟨rfl, hi⟩
  · rintro ⟨rfl, hi⟩
    exact List.mem_map.mpr ⟨k.2, hi, rfl⟩

/-- The rows a status deletes. -/
theorem mem_gone {daemonId : String} {named reported : List String} {k : DeviceKey} :
    k ∈ (named.filter fun i => i ∉ reported).map (fun i => (daemonId, i)) ↔
      daemonId = k.1 ∧ k.2 ∈ named ∧ k.2 ∉ reported := by
  rw [mem_map_pair, List.mem_filter, decide_eq_true_eq]

theorem mem_interfaces {rows : List ActiveRow} {i : String} :
    i ∈ rows.map ActiveRow.interface ↔ (rows.find? fun r => r.interface = i).isSome := by
  rw [List.find?_isSome]
  simp

/-- A `HELLO` is recorded in `daemon_devices`, and nowhere else. -/
theorem step_recordHello (daemonId database : String) (devices : List Device) (now : Int) :
    s.step (.recordHello daemonId database devices now) =
      { s with
        devices := (Lib.upsert (fun _ d => ⟨d.bus, database, now⟩) s.devices
          (devices.map fun d => ((daemonId, d.name), d))).getD s.devices } := by
  simp only [step, recordHello]
  cases Lib.upsert (fun _ d => (⟨d.bus, database, now⟩ : DaemonDeviceRow)) s.devices
    (devices.map fun d => ((daemonId, d.name), d)) <;> rfl

/-- A status is recorded in `daemon_active`, and nowhere else. -/
theorem step_recordStatus (daemonId : String) (devices : List Device) (status : List ReportedEntry)
    (now : Int) :
    s.step (.recordStatus daemonId devices status now) =
      { s with
        active := ((Lib.upsert (activeRow now) s.active
            ((activeRows devices status).map fun r => ((daemonId, r.interface), r))).map
          fun active => Lib.deleteAll active (((devices.map Device.name).filter fun i =>
            i ∉ (activeRows devices status).map ActiveRow.interface).map
              fun i => (daemonId, i))).getD s.active } := by
  simp only [step, recordStatus]
  cases Lib.upsert (activeRow now) s.active
    ((activeRows devices status).map fun r => ((daemonId, r.interface), r)) <;> rfl

theorem step_devices (c : RegistryCall) (k : DeviceKey) :
    (s.step c).devices.lookup k = (c.naming k).or (s.devices.lookup k) := by
  cases c with
  | recordHello daemonId database devices now =>
    rw [step_recordHello]
    simp only [RegistryCall.naming]
    cases hupsert : Lib.upsert (fun _ d => (⟨d.bus, database, now⟩ : DaemonDeviceRow)) s.devices
        (devices.map fun d => ((daemonId, d.name), d)) with
    | none =>
      have hnot := Lib.upsert_eq_none.mp hupsert
      rw [keys_nodup_iff] at hnot
      simp [hnot]
    | some t =>
      have hkeys := (Lib.upsert_eq_some hupsert).1
      rw [keys_nodup_iff] at hkeys
      have hlookup := Lib.lookup_upsert hupsert k
      rw [find_keyed] at hlookup
      simp only [Option.getD_some, hkeys, and_true]
      rw [hlookup]
      by_cases hd : daemonId = k.1
      · rw [if_pos hd, if_pos hd]
        cases devices.find? fun d => d.name = k.2 <;> rfl
      · rw [if_neg hd, if_neg hd]
        rfl
  | recordStatus daemonId devices status now =>
    rw [step_recordStatus]
    exact (Option.none_or).symm
  | assign daemonId interface sha blob assignedBy now => rfl
  | clear daemonId interface => rfl

theorem step_assignments (c : RegistryCall) (k : DeviceKey) :
    (s.step c).assignments.lookup k =
      match c.assigning k with
      | none => s.assignments.lookup k
      | some none => none
      | some (some row) =>
        if (s.assignments.lookup k).map (·.blobSha) = some row.blobSha then s.assignments.lookup k
        else some row := by
  cases c with
  | recordHello daemonId database devices now =>
    rw [step_recordHello]
    rfl
  | recordStatus daemonId devices status now =>
    rw [step_recordStatus]
    rfl
  | assign daemonId interface sha blob assignedBy now =>
    simp only [step, assign, RegistryCall.assigning]
    by_cases hk : (daemonId, interface) = k
    · subst hk
      rw [if_pos rfl]
      dsimp only
      by_cases hsame : (s.assignments.lookup (daemonId, interface)).map (·.blobSha) = some sha
      · rw [if_pos hsame, if_pos hsame]
      · rw [if_neg hsame, if_neg hsame]
        exact AList.lookup_insert _
    · rw [if_neg hk]
      split
      · rfl
      · exact AList.lookup_insert_ne (Ne.symm hk)
  | clear daemonId interface =>
    simp only [step, clear, RegistryCall.assigning]
    by_cases hk : (daemonId, interface) = k
    · subst hk
      rw [if_pos rfl]
      exact AList.lookup_erase _ _
    · rw [if_neg hk]
      exact AList.lookup_erase_ne (Ne.symm hk)

theorem step_active (c : RegistryCall) (k : DeviceKey) :
    (s.step c).active.lookup k =
      match c.reporting k with
      | none => s.active.lookup k
      | some (none, _) => none
      | some (some r, now) => some (activeRow now (s.active.lookup k) r) := by
  cases c with
  | recordHello daemonId database devices now =>
    rw [step_recordHello]
    rfl
  | recordStatus daemonId devices status now =>
    rw [step_recordStatus]
    simp only [RegistryCall.reporting]
    cases hupsert : Lib.upsert (activeRow now) s.active
        ((activeRows devices status).map fun r => ((daemonId, r.interface), r)) with
    | none =>
      have hnot := Lib.upsert_eq_none.mp hupsert
      rw [keys_nodup_iff] at hnot
      simp [hnot]
    | some t =>
      have hkeys := (Lib.upsert_eq_some hupsert).1
      rw [keys_nodup_iff] at hkeys
      have hlookup := Lib.lookup_upsert hupsert k
      rw [find_keyed] at hlookup
      simp only [Option.map_some, Option.getD_some, hkeys, and_true]
      rw [Lib.lookup_deleteAll, hlookup]
      by_cases hd : daemonId = k.1
      · rw [if_pos hd, if_pos hd]
        simp only [mem_gone, hd, true_and]
        simp only [mem_interfaces]
        cases (activeRows devices status).find? fun r => r.interface = k.2 with
        | some r => simp
        | none =>
          simp only [Option.isSome_none, Bool.false_eq_true, not_false_eq_true, and_true,
            Option.map_none]
          split <;> rfl
      · rw [if_neg fun h => hd (mem_gone.mp h).1, if_neg hd, if_neg hd]
  | assign daemonId interface sha blob assignedBy now => rfl
  | clear daemonId interface => rfl

theorem step_blobs (c : RegistryCall) (sha : Sha) :
    (s.step c).blobs.lookup sha = (s.blobs.lookup sha).or (c.storing sha) := by
  cases c with
  | recordHello daemonId database devices now =>
    rw [step_recordHello]
    exact (Option.or_none).symm
  | recordStatus daemonId devices status now =>
    rw [step_recordStatus]
    exact (Option.or_none).symm
  | assign daemonId interface sha' blob assignedBy now =>
    simp only [step, assign, RegistryCall.storing]
    by_cases hsha : sha' = sha
    · subst hsha
      cases hlookup : s.blobs.lookup sha' with
      | none => simp
      | some blob' => simp [hlookup]
    · rw [if_neg hsha, Option.or_none]
      split
      · rfl
      · exact AList.lookup_insert_ne (Ne.symm hsha)
  | clear daemonId interface => exact (Option.or_none).symm

end Registry

/-! ### What the calls told -/

theorem AssignedSince.snoc {told : List (Option CatalogAssignmentRow)}
    {row : Option CatalogAssignmentRow} (h : AssignedSince told row) (row' : CatalogAssignmentRow) :
    AssignedSince (told ++ [some row'])
      (if row.map (·.blobSha) = some row'.blobSha then row else some row') := by
  cases h with
  | unassigned hlast =>
    refine .assigned row' row' (Streak.start ?_)
    intro y hy
    rw [hlast y hy]
    simp
  | assigned first last hstreak =>
    by_cases hsame : first.blobSha = row'.blobSha
    · rw [if_pos (by simp [hsame])]
      refine .assigned first row' (hstreak.more ?_)
      simp [hsame]
    · rw [if_neg (by simpa using hsame)]
      refine .assigned row' row' (Streak.start ?_)
      intro y hy
      obtain rfl := Option.some.inj (hstreak.getLast?.symm.trans hy)
      rw [hstreak.last_eq]
      simpa using hsame

theorem AssignedSince.cleared (told : List (Option CatalogAssignmentRow)) :
    AssignedSince (told ++ [none]) none := by
  refine .unassigned ?_
  simp

theorem ActiveSince.snoc {told : List (Option ActiveRow × Int)} {row : Option DaemonActiveRow}
    (h : ActiveSince told row) (r : ActiveRow) (now : Int) :
    ActiveSince (told ++ [(some r, now)]) (some (Registry.activeRow now row r)) := by
  cases h with
  | unreported hlast =>
    refine .reported (some r, now) (some r, now) r (Streak.start ?_) rfl
    intro y hy
    rw [hlast y hy]
    simp
  | reported first last r' hstreak hlast =>
    have hkey : first.1.map ActiveRow.catalogue = some (r'.source, r'.blobSha) := by
      rw [← hstreak.last_eq, hlast]
      rfl
    by_cases hsame : (r'.source, r'.blobSha) = (r.source, r.blobSha)
    · have hrow : Registry.activeRow now
          (some ⟨r'.source, r'.blobSha, r'.refused.map (·.1), r'.refused.map (·.2), first.2⟩) r =
            ⟨r.source, r.blobSha, r.refused.map (·.1), r.refused.map (·.2), first.2⟩ := by
        simp only [Registry.activeRow, if_pos hsame]
      rw [hrow]
      refine .reported first (some r, now) r (hstreak.more ?_) rfl
      rw [hkey, hsame]
      rfl
    · have hrow : Registry.activeRow now
          (some ⟨r'.source, r'.blobSha, r'.refused.map (·.1), r'.refused.map (·.2), first.2⟩) r =
            ⟨r.source, r.blobSha, r.refused.map (·.1), r.refused.map (·.2), now⟩ := by
        simp only [Registry.activeRow, if_neg hsame]
      rw [hrow]
      refine .reported (some r, now) (some r, now) r (Streak.start ?_) rfl
      intro y hy
      obtain rfl := Option.some.inj (hstreak.getLast?.symm.trans hy)
      rw [hstreak.last_eq, hkey]
      exact fun heq => hsame (Option.some.inj heq)

theorem ActiveSince.gone (told : List (Option ActiveRow × Int)) (now : Int) :
    ActiveSince (told ++ [(none, now)]) none := by
  refine .unreported ?_
  simp

/-- The tables are what the calls told. -/
structure Registry.Tells (calls : List RegistryCall) (s : Registry) : Prop where
  devices (k : DeviceKey) :
    s.devices.lookup k = (calls.filterMap (RegistryCall.naming k)).getLast?
  assignments (k : DeviceKey) :
    AssignedSince (calls.filterMap (RegistryCall.assigning k)) (s.assignments.lookup k)
  active (k : DeviceKey) :
    ActiveSince (calls.filterMap (RegistryCall.reporting k)) (s.active.lookup k)
  blobs (sha : Sha) : s.blobs.lookup sha = (calls.filterMap (RegistryCall.storing sha)).head?

namespace Registry

theorem Tells.step {calls : List RegistryCall} {s : Registry} (h : Tells calls s)
    (c : RegistryCall) : Tells (calls ++ [c]) (s.step c) where
  devices k := by
    rw [step_devices, h.devices, List.filterMap_append, List.getLast?_append]
    cases hc : c.naming k <;> simp [hc]
  assignments k := by
    rw [step_assignments, List.filterMap_append]
    have hk := h.assignments k
    cases hc : c.assigning k with
    | none => simpa [hc] using hk
    | some row =>
      cases row with
      | none => simpa [hc] using AssignedSince.cleared _
      | some row => simpa [hc] using hk.snoc row
  active k := by
    rw [step_active, List.filterMap_append]
    have hk := h.active k
    cases hc : c.reporting k with
    | none => simpa [hc] using hk
    | some report =>
      obtain ⟨r, now⟩ := report
      cases r with
      | none => simpa [hc] using ActiveSince.gone _ now
      | some r => simpa [hc] using hk.snoc r now
  blobs sha := by
    rw [step_blobs, h.blobs, List.filterMap_append, List.head?_append]
    cases hc : c.storing sha <;> simp [hc]

theorem tells_after (calls : List RegistryCall) : Tells calls (after calls) := by
  induction calls using List.reverseRecOn with
  | nil =>
    exact ⟨fun _ => rfl, fun _ => .unassigned (by simp), fun _ => .unreported (by simp),
      fun _ => rfl⟩
  | append_singleton calls c ih =>
    rw [after, List.foldl_append]
    exact ih.step c

end Registry

/-! ### The grouping loop -/

section Grouping

variable {κ π : Type} [LinearOrder κ] {coll : Collation κ} {reader : BlobReader π}

/-- The devices of a list of daemons, in their order, each with its daemon. -/
def flatDevices (daemons : List (ListedDaemon π)) : List (String × DaemonDevice π) :=
  daemons.flatMap fun d => d.devices.map fun v => (d.daemonId, v)

theorem mem_flatDevices {daemons : List (ListedDaemon π)} {i : String} {v : DaemonDevice π} :
    (i, v) ∈ flatDevices daemons ↔ ∃ d ∈ daemons, d.daemonId = i ∧ v ∈ d.devices := by
  simp only [flatDevices, List.mem_flatMap, List.mem_map, Prod.mk.injEq]
  constructor
  · rintro ⟨d, hd, v', hv, hi, rfl⟩
    exact ⟨d, hd, hi, hv⟩
  · rintro ⟨d, hd, hi, hv⟩
    exact ⟨d, hd, v, hv, hi, rfl⟩

/-- The daemons that these rows, in the order of their daemons, are grouped into. -/
structure Grouped (coll : Collation κ) (reader : BlobReader π) (rows : List NamedRow)
    (daemons : List (ListedDaemon π)) : Prop where
  flat : flatDevices daemons = rows.map fun r => (r.daemonId, daemonDevice reader r)
  filled : ∀ d ∈ daemons, d.devices ≠ []
  ascending : daemons.Pairwise fun d d' => coll.sortKey d.daemonId < coll.sortKey d'.daemonId

/-- A row that comes after all the others. -/
theorem Grouped.addRow {rows : List NamedRow} {daemons : List (ListedDaemon π)}
    (h : Grouped coll reader rows daemons) {r : NamedRow}
    (hafter : ∀ r' ∈ rows, coll.sortKey r'.daemonId ≤ coll.sortKey r.daemonId) :
    Grouped coll reader (rows ++ [r]) (addRow reader daemons r) := by
  have hbefore : ∀ d ∈ daemons, coll.sortKey d.daemonId ≤ coll.sortKey r.daemonId := by
    intro d hd
    obtain ⟨v, hv⟩ := List.exists_mem_of_ne_nil d.devices (h.filled d hd)
    have hmem : (d.daemonId, v) ∈ flatDevices daemons := mem_flatDevices.mpr ⟨d, hd, rfl, hv⟩
    rw [h.flat] at hmem
    obtain ⟨r', hr', heq⟩ := List.mem_map.mp hmem
    have hid : r'.daemonId = d.daemonId := congrArg Prod.fst heq
    exact hid ▸ hafter r' hr'
  -- the row begins a daemon of its own
  have hnew : (∀ d ∈ daemons, coll.sortKey d.daemonId < coll.sortKey r.daemonId) →
      Grouped coll reader (rows ++ [r]) (daemons ++ [⟨r.daemonId, [daemonDevice reader r]⟩]) := by
    intro hlt
    refine ⟨?_, ?_, ?_⟩
    · have hflat := h.flat
      simp only [flatDevices] at hflat ⊢
      rw [List.flatMap_append, List.map_append, hflat]
      simp
    · intro d hd
      rcases List.mem_append.mp hd with hd | hd
      · exact h.filled d hd
      · rw [List.mem_singleton.mp hd]
        simp
    · rw [List.pairwise_append]
      refine ⟨h.ascending, List.pairwise_singleton _ _, ?_⟩
      intro d hd d' hd'
      rw [List.mem_singleton.mp hd']
      exact hlt d hd
  unfold WireTap.Gateway.addRow
  split
  · rename_i d hlast
    obtain ⟨front, rfl⟩ := List.getLast?_eq_some_iff.mp hlast
    have hascending := List.pairwise_append.mp h.ascending
    split
    · rename_i hid
      -- the row joins the last daemon
      rw [List.dropLast_concat]
      refine ⟨?_, ?_, ?_⟩
      · have hflat := h.flat
        simp only [flatDevices, List.flatMap_append, List.flatMap_singleton] at hflat ⊢
        rw [List.map_append, ← List.append_assoc, hflat, List.map_append]
        simp [hid]
      · intro d' hd'
        rcases List.mem_append.mp hd' with hd' | hd'
        · exact h.filled d' (List.mem_append_left _ hd')
        · rw [List.mem_singleton.mp hd']
          simp
      · rw [List.pairwise_append]
        refine ⟨hascending.1, List.pairwise_singleton _ _, ?_⟩
        intro a ha b hb
        rw [List.mem_singleton.mp hb]
        exact hascending.2.2 a ha d (List.mem_singleton_self d)
    · rename_i hid
      refine hnew fun a ha => ?_
      have hd : coll.sortKey d.daemonId < coll.sortKey r.daemonId :=
        lt_of_le_of_ne (hbefore d (by simp)) fun heq => hid (coll.injective heq)
      rcases List.mem_append.mp ha with ha | ha
      · exact (hascending.2.2 a ha d (List.mem_singleton_self d)).trans hd
      · rw [List.mem_singleton.mp ha]
        exact hd
  · rename_i hlast
    obtain rfl := List.getLast?_eq_none_iff.mp hlast
    exact hnew (by simp)

theorem grouped_foldl {rows : List NamedRow}
    (hrows : rows.Pairwise fun r r' => coll.sortKey r.daemonId ≤ coll.sortKey r'.daemonId) :
    Grouped coll reader rows (rows.foldl (WireTap.Gateway.addRow reader) []) := by
  induction rows using List.reverseRecOn with
  | nil => exact ⟨rfl, by simp, List.Pairwise.nil⟩
  | append_singleton rows r ih =>
    obtain ⟨hpairs, -, hafter⟩ := List.pairwise_append.mp hrows
    rw [List.foldl_append]
    exact (ih hpairs).addRow fun r' hr' => hafter r' hr' r (List.mem_singleton_self r)

theorem sublist_flatDevices {daemons : List (ListedDaemon π)} {d : ListedDaemon π}
    (hd : d ∈ daemons) :
    (d.devices.map fun v => (d.daemonId, v)).Sublist (flatDevices daemons) := by
  rw [flatDevices, List.flatMap_def]
  exact List.sublist_flatten_of_mem (List.mem_map_of_mem hd)

end Grouping

/-! ### The rows of the query -/

section Rows

variable {κ π : Type} [LinearOrder κ] {calls : List RegistryCall}

/-- `bus NULLS LAST, interface`. -/
def DaemonDevice.orderKey (coll : Collation κ) (v : DaemonDevice π) : WithTop Nat ×ₗ κ :=
  toLex ((v.bus.map fun b => WithTop.some b.toNat).getD ⊤, coll.sortKey v.interface)

omit [LinearOrder κ] in
theorem NamedRow.orderKey_eq (coll : Collation κ) (reader : BlobReader π) (r : NamedRow) :
    r.orderKey coll =
      toLex (coll.sortKey r.daemonId, (daemonDevice reader r).orderKey coll) := by
  unfold NamedRow.orderKey DaemonDevice.orderKey daemonDevice
  cases r.device <;> rfl

namespace Registry

theorem mem_named {s : Registry} {k : DeviceKey} :
    k ∈ s.named ↔ (s.devices.lookup k).isSome ∨ (s.assignments.lookup k).isSome := by
  rw [named, List.mem_union_iff, AList.lookup_isSome, AList.lookup_isSome, AList.mem_keys,
    AList.mem_keys]

theorem nodup_named (s : Registry) : s.named.Nodup := s.assignments.keys_nodup.union _

theorem namedRows_perm (s : Registry) (coll : Collation κ) :
    (s.namedRows coll).Perm (s.named.map s.namedRow) := List.mergeSort_perm _ _

theorem namedRows_pairwise (s : Registry) (coll : Collation κ) :
    (s.namedRows coll).Pairwise fun r r' => r.orderKey coll ≤ r'.orderKey coll := by
  have htrans (a b c : NamedRow) (hab : decide (a.orderKey coll ≤ b.orderKey coll) = true)
      (hbc : decide (b.orderKey coll ≤ c.orderKey coll) = true) :
      decide (a.orderKey coll ≤ c.orderKey coll) = true :=
    decide_eq_true ((of_decide_eq_true hab).trans (of_decide_eq_true hbc))
  have htotal (a b : NamedRow) :
      (decide (a.orderKey coll ≤ b.orderKey coll) || decide (b.orderKey coll ≤ a.orderKey coll)) =
        true := by
    simpa using le_total (a.orderKey coll) (b.orderKey coll)
  have hsorted := List.pairwise_mergeSort htrans htotal (s.named.map s.namedRow)
  exact hsorted.imp of_decide_eq_true

theorem nodup_namedRows (s : Registry) (coll : Collation κ) :
    ((s.namedRows coll).map fun r => (r.daemonId, r.interface)).Nodup := by
  have hperm := (s.namedRows_perm coll).map fun r => (r.daemonId, r.interface)
  rw [hperm.nodup_iff, List.map_map]
  have hid : ((fun r : NamedRow => (r.daemonId, r.interface)) ∘ s.namedRow) = id := rfl
  rw [hid, List.map_id]
  exact s.nodup_named

end Registry

/-! ### What the rows recall -/

/-- A row of the query, as the calls told it. -/
structure Recalls (calls : List RegistryCall) (r : NamedRow) : Prop where
  device : r.device =
    (calls.filterMap (RegistryCall.naming (r.daemonId, r.interface))).getLast?
  assigned :
    AssignedSince (calls.filterMap (RegistryCall.assigning (r.daemonId, r.interface))) r.assigned
  assignedBlob (a : CatalogAssignmentRow) : r.assigned = some a →
    ∃ blob, r.assignedBlob = some blob ∧
      (calls.filterMap (RegistryCall.storing a.blobSha)).head? = some blob
  active :
    ActiveSince (calls.filterMap (RegistryCall.reporting (r.daemonId, r.interface))) r.active
  activeBlob : r.activeBlob = (r.active.bind (·.blobSha)).bind fun sha =>
    (calls.filterMap (RegistryCall.storing sha)).head?

theorem AssignedSince.isSome_iff {told : List (Option CatalogAssignmentRow)}
    {row : Option CatalogAssignmentRow} (h : AssignedSince told row) :
    row.isSome ↔ ∃ last, told.getLast? = some (some last) := by
  cases h with
  | unassigned hlast =>
    constructor
    · exact fun hsome => absurd hsome (by simp)
    · rintro ⟨last, heq⟩
      cases hlast _ heq
  | assigned first last hstreak => exact ⟨fun _ => ⟨last, hstreak.getLast?⟩, fun _ => rfl⟩

theorem AssignedSince.mem {told : List (Option CatalogAssignmentRow)} {row : CatalogAssignmentRow}
    (h : AssignedSince told (some row)) : some row ∈ told := by
  cases h with
  | assigned first last hstreak => exact hstreak.mem

/-- A catalogue comes with its assignment. -/
theorem storing_of_assigning {c : RegistryCall} {k : DeviceKey} {row : CatalogAssignmentRow}
    (h : c.assigning k = some (some row)) : ∃ blob, c.storing row.blobSha = some blob := by
  cases c with
  | assign daemonId interface sha blob assignedBy now =>
    simp only [RegistryCall.assigning] at h
    split at h
    · obtain rfl := Option.some.inj (Option.some.inj h)
      exact ⟨blob, if_pos rfl⟩
    · cases h
  | clear daemonId interface =>
    simp only [RegistryCall.assigning] at h
    split at h <;> cases h
  | recordHello daemonId database devices now => cases h
  | recordStatus daemonId devices status now => cases h

theorem Registry.Tells.recalls {s : Registry} (h : s.Tells calls) (k : DeviceKey) :
    Recalls calls (s.namedRow k) where
  device := h.devices k
  assigned := h.assignments k
  assignedBlob a ha := by
    have hassigned := h.assignments k
    have hrow : s.assignments.lookup k = some a := ha
    rw [hrow] at hassigned
    obtain ⟨c, hc, hsays⟩ := List.mem_filterMap.mp hassigned.mem
    obtain ⟨blob, hblob⟩ := storing_of_assigning hsays
    have hmem : blob ∈ calls.filterMap (RegistryCall.storing a.blobSha) :=
      List.mem_filterMap.mpr ⟨c, hc, hblob⟩
    cases hhead : (calls.filterMap (RegistryCall.storing a.blobSha)).head? with
    | none =>
      rw [List.head?_eq_none_iff.mp hhead] at hmem
      cases hmem
    | some first =>
      refine ⟨first, ?_, rfl⟩
      show (s.assignments.lookup k).bind _ = some first
      rw [hrow, ← hhead, ← h.blobs]
      rfl
  active := h.active k
  activeBlob := by
    show (s.active.lookup k).bind _ = ((s.active.lookup k).bind _).bind _
    rw [Option.bind_assoc]
    congr 1
    funext x
    congr 1
    funext sha
    exact h.blobs sha

/-- A `HELLO` has named the device, or it is assigned a catalogue. -/
def IsNamed (calls : List RegistryCall) (k : DeviceKey) : Prop :=
  (∃ c ∈ calls, (c.naming k).isSome) ∨
    ∃ row, (calls.filterMap (RegistryCall.assigning k)).getLast? = some (some row)

theorem Registry.Tells.mem_named {s : Registry} (h : s.Tells calls) {k : DeviceKey} :
    k ∈ s.named ↔ IsNamed calls k := by
  have hnaming : calls.filterMap (RegistryCall.naming k) ≠ [] ↔
      ∃ c ∈ calls, (c.naming k).isSome := by
    rw [ne_eq, List.filterMap_eq_nil_iff]
    simp [Option.isSome_iff_ne_none]
  rw [Registry.mem_named, IsNamed, h.devices, (h.assignments k).isSome_iff, List.getLast?_isSome,
    hnaming]

/-! ### The list -/

/-- What the list is after these calls. -/
structure Lists (coll : Collation κ) (reader : BlobReader π) (calls : List RegistryCall)
    (listed : List (ListedDaemon π)) : Prop where
  ascending : listed.Pairwise fun d d' => coll.sortKey d.daemonId < coll.sortKey d'.daemonId
  filled : ∀ d ∈ listed, d.devices ≠ []
  once : ∀ d ∈ listed, (d.devices.map DaemonDevice.interface).Nodup
  ordered : ∀ d ∈ listed, d.devices.Pairwise fun v v' => v.orderKey coll ≤ v'.orderKey coll
  recalled : ∀ d ∈ listed, ∀ v ∈ d.devices, ∃ r,
    r.daemonId = d.daemonId ∧ v = daemonDevice reader r ∧ Recalls calls r
  named (k : DeviceKey) :
    (∃ d ∈ listed, d.daemonId = k.1 ∧ ∃ v ∈ d.devices, v.interface = k.2) ↔ IsNamed calls k

theorem run_lists (coll : Collation κ) (reader : BlobReader π) (calls : List RegistryCall) :
    Lists coll reader calls ((Registry.after calls).daemons coll reader) := by
  have htells := Registry.tells_after calls
  generalize Registry.after calls = s at htells ⊢
  have hpairs := s.namedRows_pairwise coll
  have hkeys := s.nodup_namedRows coll
  have hgrouped : Grouped coll reader (s.namedRows coll) (s.daemons coll reader) := by
    refine grouped_foldl (hpairs.imp fun {r r'} hle => ?_)
    rcases Prod.Lex.toLex_le_toLex.mp hle with hlt | ⟨heq, -⟩
    · exact hlt.le
    · exact heq.le
  -- a device is listed for a row of the query
  have hrow {d : ListedDaemon π} {v : DaemonDevice π} (hd : d ∈ s.daemons coll reader)
      (hv : v ∈ d.devices) :
      ∃ k ∈ s.named, k.1 = d.daemonId ∧ v = daemonDevice reader (s.namedRow k) := by
    have hmem : (d.daemonId, v) ∈ flatDevices (s.daemons coll reader) :=
      mem_flatDevices.mpr ⟨d, hd, rfl, hv⟩
    rw [hgrouped.flat] at hmem
    obtain ⟨r, hr, heq⟩ := List.mem_map.mp hmem
    obtain ⟨k, hk, rfl⟩ := List.mem_map.mp ((s.namedRows_perm coll).mem_iff.mp hr)
    exact ⟨k, hk, congrArg Prod.fst heq, (congrArg Prod.snd heq).symm⟩
  refine ⟨hgrouped.ascending, hgrouped.filled, ?_, ?_, ?_, ?_⟩
  · intro d hd
    have hflat :
        ((flatDevices (s.daemons coll reader)).map fun p => (p.1, p.2.interface)).Nodup := by
      rw [hgrouped.flat, List.map_map]
      exact hkeys
    have hsub := ((sublist_flatDevices hd).map fun p => (p.1, p.2.interface)).nodup hflat
    rw [List.map_map] at hsub
    refine List.Nodup.of_map (fun i => (d.daemonId, i)) ?_
    rw [List.map_map]
    exact hsub
  · intro d hd
    have hflat : (flatDevices (s.daemons coll reader)).Pairwise fun p p' =>
        toLex (coll.sortKey p.1, p.2.orderKey coll) ≤
          toLex (coll.sortKey p'.1, p'.2.orderKey coll) := by
      rw [hgrouped.flat, List.pairwise_map]
      refine hpairs.imp fun {r r'} hle => ?_
      rwa [r.orderKey_eq coll reader, r'.orderKey_eq coll reader] at hle
    have hsub := List.pairwise_map.mp (hflat.sublist (sublist_flatDevices hd))
    refine hsub.imp fun {v v'} hle => ?_
    rcases Prod.Lex.toLex_le_toLex.mp hle with hlt | ⟨-, hle'⟩
    · exact absurd hlt (lt_irrefl _)
    · exact hle'
  · intro d hd v hv
    obtain ⟨k, -, hid, heq⟩ := hrow hd hv
    exact ⟨s.namedRow k, hid, heq, htells.recalls k⟩
  · intro k
    rw [← htells.mem_named]
    constructor
    · rintro ⟨d, hd, hid, v, hv, hinterface⟩
      obtain ⟨k', hk', hid', rfl⟩ := hrow hd hv
      have hk : k' = k := Prod.ext (hid'.trans hid) hinterface
      exact hk ▸ hk'
    · intro hk
      have hr : s.namedRow k ∈ s.namedRows coll :=
        (s.namedRows_perm coll).mem_iff.mpr (List.mem_map_of_mem hk)
      have hmem : (k.1, daemonDevice reader (s.namedRow k)) ∈
          flatDevices (s.daemons coll reader) := by
        rw [hgrouped.flat]
        exact List.mem_map.mpr ⟨s.namedRow k, hr, rfl⟩
      obtain ⟨d, hd, hid, hv⟩ := mem_flatDevices.mp hmem
      exact ⟨d, hd, hid, _, hv, rfl⟩

end Rows

end WireTap.Gateway
